import BitLogic.IR.Builder
import Mathlib.Data.List.Forall2

/-!
# Executing a Module

What the instructions of a module compute, so that lowering can be compared with
evaluation.

A block is executed from its first instruction to its last. Each one reads two
operands and adds its result to a list, and an operand that names a result is looked
up in that list by position. An operand that names no parameter or no earlier result
has no value, and then neither has the block: nothing is made up for a malformed
block. `main` passes its bits to `eval` as constants and widens the answer to a word
of 32 bits.

Lowering appends to a block that is under construction, and the whole argument rests
on one observation about that: results are never changed once they are there.
Appending instructions extends the list of results, so an operand keeps the value it
had (`Operand.value?_of_isPrefix`). `Emits` puts this into the form that a sequence of
lowering actions needs. It says of an action that it turns a block with results `rs`
into one whose results extend `rs`, and what the operand that it returns is worth
there; `emits_bind` chains two of them.

## Main definitions

* `IR.Op.apply`: The meaning of an operation on two bits.
* `IR.Operand.value?`, `IR.Instr.value?`: The bit that an operand or an instruction
  yields.
* `IR.exec?`: The results of a list of instructions behind earlier results.
* `IR.Func.call?`: The bit that a function returns.
* `IR.exitCode?`: The word that the module of one program returns.
* `IR.Computes`: A block under construction has the given results.
* `IR.Emits`: What an action does to a block under construction.

## Theorems

* `IR.Operand.value?_of_isPrefix`: Later results do not change an operand.
* `IR.exec?_append`: Executing one list behind another.
* `IR.length_exec?`, `IR.Computes.length`: There is one result per instruction.
* `IR.computes_empty`, `IR.computes_push`: One more instruction gives one more result.
* `IR.emits_pure`, `IR.emits_throw`, `IR.emits_bind`, `IR.emits_push`: Actions step by
  step.
* `IR.emits_mono`: What is said of an action may be weakened.
* `IR.emits_foldlM`, `IR.emits_chain`: A chain computes a fold that starts at its unit.
* `IR.emits_emit`: The instructions of a function compute its value.
-/

namespace BitLogic

namespace IR

/-- The meaning of an operation on two bits. -/
def Op.apply : Op → Bool → Bool → Bool
  | .and, a, b => a && b
  | .or, a, b => a || b
  | .xor, a, b => a ^^ b

/-- The bit that an operand holds, given the parameters and the results so far. -/
def Operand.value? (params : Env) (rs : List Bool) : Operand → Option Bool
  | .const b => some b
  | .param name => params.get? name
  | .result i => rs[i]?

/-- The result of an instruction, if both its operands hold a bit. -/
def Instr.value? (params : Env) (rs : List Bool) (i : Instr) : Option Bool :=
  match i.lhs.value? params rs, i.rhs.value? params rs with
  | some a, some b => some (i.op.apply a b)
  | _, _ => none

/-- The results after a list of instructions, in order and behind earlier ones. -/
def exec? (params : Env) : List Bool → List Instr → Option (List Bool)
  | rs, [] => some rs
  | rs, i :: is =>
    match i.value? params rs with
    | some b => exec? params (rs ++ [b]) is
    | none => none

/-- The bit that a function returns when it is called with one bit per parameter. An
    unfinished function returns nothing, and neither does `main`, which nobody
    calls. -/
def Func.call? : Func → List Bool → Option Bool
  | .eval names body (some ret), bits =>
    if names.length = bits.length then
      (exec? (names.zip bits) [] body.toList).bind fun rs => ret.value? (names.zip bits) rs
    else none
  | .eval _ _ none, _ => none
  | .main _, _ => none

/-- The word that the module of one program returns: `main` calls the function before
    it with its bits and widens the bit that it gets. -/
def exitCode? : List Func → Option (BitVec 32)
  | [f, .main bits] => (f.call? bits).map fun b => (BitVec.ofBool b).zeroExtend 32
  | _ => none

/-- Results are only ever added, so an operand keeps its value. -/
theorem Operand.value?_of_isPrefix (params : Env) (rs rs' : List Bool) (h : rs <+: rs')
    (x : Operand) (b : Bool) (hx : x.value? params rs = some b) :
    x.value? params rs' = some b := by
  cases x with
  | const c => exact hx
  | param name => exact hx
  | result i =>
      rcases h with ⟨more, rfl⟩
      simp only [Operand.value?] at hx ⊢
      have hlt : i < rs.length := (List.getElem?_eq_some_iff.mp hx).1
      rw [List.getElem?_append_left hlt]
      exact hx

/-- Executing one list behind another is executing the second at the results of the first.
    -/
theorem exec?_append (params : Env) (is js : List Instr) : ∀ rs : List Bool,
    exec? params rs (is ++ js) = (exec? params rs is).bind fun rs' => exec? params rs' js := by
  induction is with
  | nil => intro rs; rfl
  | cons i is ih =>
      intro rs
      simp only [List.cons_append, exec?]
      cases i.value? params rs with
      | none => rfl
      | some b => exact ih (rs ++ [b])

/-- There is one result per instruction, behind those that were there. -/
theorem length_exec? (params : Env) (is : List Instr) : ∀ rs rs' : List Bool,
    exec? params rs is = some rs' → rs'.length = rs.length + is.length := by
  induction is with
  | nil =>
      intro rs rs' h
      simp only [exec?, Option.some.injEq] at h
      rw [← h, List.length_nil, Nat.add_zero]
  | cons i is ih =>
      intro rs rs' h
      simp only [exec?] at h
      -- An instruction without a value ends the execution, so this one has a value.
      cases hi : i.value? params rs with
      | none => rw [hi] at h; simp only [reduceCtorEq] at h
      | some b =>
          rw [hi] at h
          have hlen := ih (rs ++ [b]) rs' h
          simp only [List.length_append, List.length_cons, List.length_nil] at hlen ⊢
          omega

/-- The instructions of a block under construction have the given results. -/
def Computes (params : Env) (body : Array Instr) (rs : List Bool) : Prop :=
  exec? params [] body.toList = some rs

@[simp]
theorem computes_empty (params : Env) : Computes params #[] [] := rfl

theorem Computes.length {params : Env} {body : Array Instr} {rs : List Bool}
    (h : Computes params body rs) : rs.length = body.size := by
  have hlen := length_exec? params body.toList [] rs h
  simpa using hlen

/-- One more instruction gives one more result, worth what the instruction says. -/
theorem computes_push (params : Env) (body : Array Instr) (rs : List Bool) (op : Op)
    (x y : Operand) (a b : Bool) (h : Computes params body rs)
    (hx : x.value? params rs = some a) (hy : y.value? params rs = some b) :
    Computes params (body.push ⟨op, x, y⟩) (rs ++ [op.apply a b]) := by
  unfold Computes at h ⊢
  rw [Array.toList_push, exec?_append, h]
  simp only [Option.bind_some, exec?, Instr.value?, hx, hy]

/-- What an action does to a block with results `rs`. If it succeeds, the results of
    the block extend `rs` and `post` holds of the answer and the new results; if it
    stops, `halt` holds of the reason. -/
def Emits {α : Type} (params : Env) (body : Array Instr) (rs : List Bool) (m : Lowering α)
    (post : α → List Bool → Prop) (halt : Stop → Prop) : Prop :=
  match m.run body with
  | .ok x body' => ∃ rs', rs <+: rs' ∧ Computes params body' rs' ∧ post x rs'
  | .error stop _ => halt stop

section

variable {α β : Type} {params : Env} {body : Array Instr} {rs : List Bool}
variable {post : α → List Bool → Prop} {halt : Stop → Prop}

theorem emits_pure (x : α) (h : Computes params body rs) (hx : post x rs) :
    Emits params body rs (pure x) post halt :=
  ⟨rs, List.prefix_refl rs, h, hx⟩

theorem emits_throw (stop : Stop) (h : halt stop) :
    Emits params body rs (throw stop : Lowering α) post halt := h

/-- Two actions one after the other. What the first leaves is where the second starts, and
    nothing of it is changed by the second. -/
theorem emits_bind (m : Lowering α) (k : α → Lowering β) {post' : β → List Bool → Prop}
    (hm : Emits params body rs m post halt)
    (hk : ∀ x body' rs', rs <+: rs' → Computes params body' rs' → post x rs' →
      Emits params body' rs' (k x) post' halt) :
    Emits params body rs (m >>= k) post' halt := by
  unfold Emits at hm ⊢
  rw [EStateM.run_bind]
  cases hrun : m.run body with
  | error stop body' => rw [hrun] at hm; exact hm
  | ok x body' =>
      rw [hrun] at hm
      rcases hm with ⟨rs', hle, hc, hx⟩
      -- The second action starts at the results that the first one leaves.
      have hnext := hk x body' rs' hle hc hx
      unfold Emits at hnext
      simp only []
      cases hrun' : (k x).run body' with
      | error stop body'' => rw [hrun'] at hnext; exact hnext
      | ok y body'' =>
          rw [hrun'] at hnext
          rcases hnext with ⟨rs'', hle', hc', hy⟩
          exact ⟨rs'', hle.trans hle', hc', hy⟩

/-- What is said of the answer of an action, or of the reason for which it stops, may be
    weakened. -/
theorem emits_mono (m : Lowering α) {post' : α → List Bool → Prop} {halt' : Stop → Prop}
    (hm : Emits params body rs m post halt)
    (hpost : ∀ x rs', rs <+: rs' → post x rs' → post' x rs')
    (hhalt : ∀ stop, halt stop → halt' stop) : Emits params body rs m post' halt' := by
  unfold Emits at hm ⊢
  cases hrun : m.run body with
  | error stop body' => rw [hrun] at hm; exact hhalt stop hm
  | ok x body' =>
      rw [hrun] at hm
      rcases hm with ⟨rs', hle, hc, hx⟩
      exact ⟨rs', hle, hc, hpost x rs' hle hx⟩

/-- An appended instruction is worth its result: its position in the block is the
    position of its result. -/
theorem emits_push (op : Op) (x y : Operand) (a b : Bool) (h : Computes params body rs)
    (hx : x.value? params rs = some a) (hy : y.value? params rs = some b) :
    Emits params body rs (push ⟨op, x, y⟩)
      (fun z rs' => z.value? params rs' = some (op.apply a b)) halt := by
  refine ⟨rs ++ [op.apply a b], List.prefix_append rs _, ?_, ?_⟩
  · exact computes_push params body rs op x y a b h hx hy
  · simp only [Operand.value?]
    rw [← h.length]
    exact List.getElem?_concat_length

/-- A chain from an operand on folds the operation over the operands behind it. -/
theorem emits_foldlM (op : Op) (xs : List Operand) : ∀ (body : Array Instr) (rs : List Bool)
    (acc : Operand) (a : Bool) (bs : List Bool), Computes params body rs →
      acc.value? params rs = some a →
      List.Forall₂ (fun x b => x.value? params rs = some b) xs bs →
      Emits params body rs (xs.foldlM (fun acc y => push ⟨op, acc, y⟩) acc)
        (fun z rs' => z.value? params rs' = some (bs.foldl op.apply a)) halt := by
  -- Along the operands. The block, its results and the operand so far all change with each
  -- instruction.
  induction xs with
  | nil =>
      intro body rs acc a bs h hacc hxs
      cases hxs
      exact emits_pure acc h hacc
  | cons x xs ih =>
      intro body rs acc a bs h hacc hxs
      cases hxs with
      | @cons _ b _ bs hx hxs =>
          refine emits_bind _ _ (emits_push op acc x a b h hacc hx) ?_
          intro z body' rs' hle hc hz
          -- The operands still to come were lowered earlier and keep their values.
          exact ih body' rs' z (op.apply a b) bs hc hz
            (hxs.imp fun y b hy => y.value?_of_isPrefix params rs rs' hle b hy)

/-- A chain computes the fold that starts at its unit. It starts at its first operand
    instead, which is the same because the unit is neutral. -/
theorem emits_chain (op : Op) (unit : Bool) (hunit : ∀ b, op.apply unit b = b)
    (xs : List Operand) (bs : List Bool) (h : Computes params body rs)
    (hxs : List.Forall₂ (fun x b => x.value? params rs = some b) xs bs) :
    Emits params body rs (chain op unit xs)
      (fun z rs' => z.value? params rs' = some (bs.foldl op.apply unit)) halt := by
  -- Without operands the chain is its unit.
  cases hxs with
  | nil => exact emits_pure _ h rfl
  | cons hx hxs =>
      rw [List.foldl_cons, hunit]
      exact emits_foldlM op _ body rs _ _ _ h hx hxs

/-- The instructions of a function compute its value, or break off where it does. -/
theorem emits_emit (f : Builtin) (xs : List Operand) (bs : List Bool)
    (h : Computes params body rs)
    (hxs : List.Forall₂ (fun x b => x.value? params rs = some b) xs bs) :
    Emits params body rs (emit f xs)
      (fun z rs' => ∃ b, f.apply bs = .ok b ∧ z.value? params rs' = some b)
      (fun stop => ∃ b, f.apply bs = .error b ∧ stop = .breach b) := by
  cases f with
  | not =>
      cases hxs with
      | nil => exact emits_throw _ ⟨.outOfRange, rfl, rfl⟩
      | @cons x b xs bs hx _ =>
          refine emits_mono _ (emits_push .xor x _ b true h hx rfl) ?_ fun _ hs => hs
          intro z rs' _ hz
          refine ⟨!b, rfl, ?_⟩
          rw [hz, Op.apply, Bool.xor_true]
  | and =>
      exact emits_mono _ (emits_chain .and true Bool.true_and xs bs h hxs)
        (fun _ _ _ hz => ⟨_, rfl, hz⟩) fun _ hs => hs
  | or =>
      exact emits_mono _ (emits_chain .or false Bool.false_or xs bs h hxs)
        (fun _ _ _ hz => ⟨_, rfl, hz⟩) fun _ hs => hs

end

end IR

end BitLogic
