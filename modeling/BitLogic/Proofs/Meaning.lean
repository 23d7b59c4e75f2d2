import BitLogic.Proofs.Faults
import Mathlib.Data.List.Forall2

/-!
# The Meaning of an Expression

What an expression means, said without an environment and without the functions that
evaluation calls, and the proof that evaluation finds it.

`Expr.Denotes` is the meaning as a relation. A letter stands for the bit at its place,
a negation has one argument, and a conjunction or disjunction has any number of them. The
rules build up a value from the values of all arguments, so there is no order and no first
failure in them. An expression without a meaning is simply one that no rule applies to,
and `Expr.Regular` says which nodes are to blame: an expression has a meaning if and only
if all its nodes are regular.

An environment is a table that was filled by going over the bits, and what it binds is a
question about all texts. `Env.get?_letters` answers it: a name is bound to a bit exactly
if it is the letter of the place where that bit stands. The letters of different places
are different as long as there are no more than the alphabet has, which is where the limit
on the number of bits comes in.

An irregular node has one fault, and `Expr.Offends` says which. Evaluation stops at the
first fault of a node, a node coming before its arguments. Which nodes offend has nothing
to do with the bits, only with how many of them there are.

What evaluation returns is a value and perhaps a fault. All but the last section is about
outcomes, which have one or the other. `verdict_eq_value_iff` and `verdict_eq_fault_iff`
carry it over, the second one with the value that is returned beside a fault.

## Main definitions

* `letter`: The name of a place.
* `Expr.Denotes`: The meaning of an expression at given bits.
* `Expr.Regular`: A node that is not at fault itself.
* `Expr.Offends`: The fault of a node.

## Theorems

* `varName_eq_letter`, `letter_injective`: The names of the places are different
  letters.
* `getElem?_varNames`, `nodup_varNames`: The names of all places.
* `Env.get?_zip_iff`: What a table of different names binds.
* `Env.get?_letters`, `Env.isSome_get?_letters`: What the environment of a program
  binds.
* `Builtin.apply_and`, `Builtin.apply_or`: The values of the functions.
* `Expr.evalAll_eq_ok_iff`, `Expr.eval_call_eq_ok_iff`: When arguments and calls have
  values.
* `Expr.denotes_call_iff`: The rules for calls in one.
* `Expr.eval_eq_ok_iff`: Evaluation finds the meaning and nothing else.
* `Expr.Solid.of_mem_nodes`: The nodes of a tree without blanks are none.
* `Expr.regular_iff_not_offends`: A node is regular or at fault.
* `Symbols.problem?_eq_some_iff`, `Symbols.problem?_eq_none_iff`: The problem of a node
  is its fault.
* `Program.eval_error_iff_offends`, `Program.exists_eval_iff_regular`: Where evaluation
  stops, and when it does not.
* `Expr.value_of_fault`, `Program.value_of_fault`: The value beside a fault is false.
* `Program.verdict_eq_value_iff`, `Program.verdict_eq_fault_iff`: Verdicts and outcomes.
* `Program.eval_finds_meaning`: What evaluating a program returns.
* `Program.eval_finds_meaning_faulty`: A program with a fault.
-/

namespace BitLogic

/-! ## Names of places -/

/-- The name of a place: A for the first, and so on through the alphabet. -/
def letter (i : Nat) : Text := [UInt8.ofNat (65 + i)]

theorem varName_eq_letter (i : Nat) (h : i < maxArgs) : varName i = letter i := by
  have hi : i < 26 := h
  -- The letters are ASCII, so neither the word size nor the encoding shows.
  have hword : Int.bmod (65 + i) 4294967296 = ((65 + i : Nat) : Int) := by
    rw [Int.bmod_eq_of_le (by omega) (by omega)]
    omega
  have hascii : 65 + i < 0x80 := by omega
  rw [varName, hword]
  simp only [Int.toNat_natCast]
  rw [if_neg (by omega), Utf8.encode, if_pos hascii]
  rfl

theorem letter_injective (i j : Nat) (hi : i < maxArgs) (hj : j < maxArgs)
    (h : letter i = letter j) : i = j := by
  have hi : i < 26 := hi
  have hj : j < 26 := hj
  have hbyte : UInt8.ofNat (65 + i) = UInt8.ofNat (65 + j) := List.singleton_inj.mp h
  -- The letters end long before the bytes do.
  have hcode := congrArg UInt8.toNat hbyte
  rw [UInt8.toNat_ofNat', UInt8.toNat_ofNat'] at hcode
  omega

theorem getElem?_varNames (n i : Nat) (name : Text) (hn : n ≤ maxArgs) :
    (varNames n)[i]? = some name ↔ i < n ∧ name = letter i := by
  rw [varNames, List.getElem?_map]
  by_cases hi : i < n
  · rw [List.getElem?_range hi, Option.map_some, Option.some.injEq,
      varName_eq_letter i (by omega)]
    exact ⟨fun h => ⟨hi, h.symm⟩, fun h => h.2.symm⟩
  · rw [List.getElem?_eq_none (by rw [List.length_range]; omega)]
    simp only [Option.map_none, reduceCtorEq, hi, false_and]

theorem nodup_varNames (n : Nat) (hn : n ≤ maxArgs) : (varNames n).Nodup := by
  rw [varNames, List.Nodup, List.pairwise_map]
  refine List.nodup_range.imp_of_mem ?_
  intro i j hi hj hne heq
  rw [List.mem_range] at hi hj
  rw [varName_eq_letter i (by omega), varName_eq_letter j (by omega)] at heq
  exact hne (letter_injective i j (by omega) (by omega) heq)

namespace Env

/-- A table of different names binds a name to the bit that stands beside it. -/
theorem get?_zip_iff (name : Text) (b : Bool) (names : List Text) : ∀ bits : List Bool,
    names.Nodup → (get? (names.zip bits) name = some b ↔
      ∃ i : Nat, names[i]? = some name ∧ bits[i]? = some b) := by
  induction names with
  | nil =>
      intro bits _
      simp only [List.zip_nil_left, get?, List.lookup_nil, List.getElem?_nil, reduceCtorEq,
        false_and, exists_const]
  | cons n names ih =>
      intro bits hnodup
      rw [List.nodup_cons] at hnodup
      cases bits with
      | nil =>
          simp only [List.zip_nil_right, get?, List.lookup_nil, List.getElem?_nil, reduceCtorEq,
            and_false, exists_const]
      | cons c bits =>
          have hrest := ih bits hnodup.2
          rw [get?] at hrest
          rw [List.zip_cons_cons, get?, List.lookup_cons]
          by_cases hn : name = n
          · -- The name stands first, and nowhere else.
            rw [hn, beq_self_eq_true]
            simp only [Option.some.injEq]
            constructor
            · intro hc
              exact ⟨0, rfl, by rw [List.getElem?_cons_zero, hc]⟩
            · rintro ⟨i, hname, hbit⟩
              cases i with
              | zero => exact Option.some.inj hbit
              | succ i =>
                  rw [List.getElem?_cons_succ] at hname
                  exact absurd (List.mem_of_getElem? hname) hnodup.1
          · -- The name stands further on if anywhere, and its place is counted from there.
            rw [beq_eq_false_iff_ne.mpr hn]
            simp only
            rw [hrest]
            constructor
            · rintro ⟨i, hname, hbit⟩
              exact ⟨i + 1, hname, hbit⟩
            · rintro ⟨i, hname, hbit⟩
              cases i with
              | zero => exact absurd (Option.some.inj hname).symm hn
              | succ i => exact ⟨i, hname, hbit⟩

/-- A name is bound to a bit if and only if it is the letter of the place where the bit
    stands. -/
theorem get?_letters (bits : List Bool) (hbits : bits.length ≤ maxArgs) (name : Text) (b : Bool) :
    get? ((varNames bits.length).zip bits) name = some b ↔
      ∃ i : Nat, name = letter i ∧ bits[i]? = some b := by
  rw [get?_zip_iff name b _ bits (nodup_varNames _ hbits)]
  constructor
  · rintro ⟨i, hname, hbit⟩
    exact ⟨i, ((getElem?_varNames _ i name hbits).mp hname).2, hbit⟩
  · rintro ⟨i, hname, hbit⟩
    have hi := (List.getElem?_eq_some_iff.mp hbit).1
    exact ⟨i, (getElem?_varNames _ i name hbits).mpr ⟨hi, hname⟩, hbit⟩

/-- The names that are bound are the letters of the places. -/
theorem isSome_get?_letters (bits : List Bool) (hbits : bits.length ≤ maxArgs) (name : Text) :
    (get? ((varNames bits.length).zip bits) name).isSome = true ↔
      ∃ i < bits.length, name = letter i := by
  rw [Option.isSome_iff_exists]
  constructor
  · rintro ⟨b, hb⟩
    rcases (get?_letters bits hbits name b).mp hb with ⟨i, hname, hbit⟩
    exact ⟨i, (List.getElem?_eq_some_iff.mp hbit).1, hname⟩
  · rintro ⟨i, hi, hname⟩
    exact ⟨bits[i], (get?_letters bits hbits name _).mpr
      ⟨i, hname, List.getElem?_eq_getElem hi⟩⟩

end Env

/-! ## Values -/

namespace Builtin

/-- A conjunction holds if all its arguments do. -/
@[simp]
theorem apply_and (bs : List Bool) : Builtin.and.apply bs = .ok (bs.all fun b => b) := by
  rw [apply, Except.ok.injEq]
  induction bs with
  | nil => rfl
  | cons b bs ih =>
      -- The first argument can be taken out of the fold, since conjunction is associative.
      rw [List.foldl_cons, Bool.true_and, ← Bool.and_true b, List.foldl_assoc, ih, Bool.and_true,
        List.all_cons]

/-- A disjunction holds if one of its arguments does. -/
@[simp]
theorem apply_or (bs : List Bool) : Builtin.or.apply bs = .ok (bs.any fun b => b) := by
  rw [apply, Except.ok.injEq]
  induction bs with
  | nil => rfl
  | cons b bs ih =>
      rw [List.foldl_cons, Bool.false_or, ← Bool.or_false b, List.foldl_assoc, ih, Bool.or_false,
        List.any_cons]

end Builtin

namespace Expr

/-- The meaning of an expression at given bits. A letter means the bit at its place, and a
    call means the negation of its one argument, the conjunction of its arguments or their
    disjunction, by its name. -/
inductive Denotes (bits : List Bool) : Expr → Bool → Prop
  | var (id : Ident) (s : Span) (i : Nat) (b : Bool) (hname : id.name = letter i)
      (hbit : bits[i]? = some b) : Denotes bits (.var id s) b
  | not (id : Ident) (e : Expr) (s : Span) (b : Bool) (hname : id.name = Text.ofString "not")
      (he : Denotes bits e b) : Denotes bits (.call id [e] s) (!b)
  | and (id : Ident) (es : List Expr) (s : Span) (bs : List Bool)
      (hname : id.name = Text.ofString "and") (hes : List.Forall₂ (Denotes bits) es bs) :
      Denotes bits (.call id es s) (bs.all fun b => b)
  | or (id : Ident) (es : List Expr) (s : Span) (bs : List Bool)
      (hname : id.name = Text.ofString "or") (hes : List.Forall₂ (Denotes bits) es bs) :
      Denotes bits (.call id es s) (bs.any fun b => b)

/-- Arguments have values together if each of them has its own. -/
theorem evalAll_eq_ok_iff (env : Env) (es : List Expr) : ∀ bs : List Bool,
    evalAll env es = .ok bs ↔ List.Forall₂ (fun e b => e.eval env = .ok b) es bs := by
  induction es with
  | nil =>
      intro bs
      rw [evalAll_nil, Except.ok.injEq, List.forall₂_nil_left_iff]
      exact eq_comm
  | cons e es ih =>
      intro bs
      rw [evalAll_cons, List.forall₂_cons_left_iff]
      cases hev : e.eval env with
      | error stop => simp only [reduceCtorEq, false_and, exists_const]
      | ok b =>
          simp only [Except.ok.injEq]
          cases hall : evalAll env es with
          | error stop =>
              simp only [Except.map, reduceCtorEq, false_iff]
              rintro ⟨c, cs, -, hcs, -⟩
              rw [← ih cs, hall] at hcs
              simp only [reduceCtorEq] at hcs
          | ok cs =>
              simp only [Except.map, Except.ok.injEq]
              constructor
              · rintro rfl
                exact ⟨b, cs, rfl, (ih cs).mp hall, rfl⟩
              · rintro ⟨c, ds, rfl, hds, rfl⟩
                rw [← ih ds, hall, Except.ok.injEq] at hds
                rw [hds]

/-- A call has a value if its name and the number of its arguments fit a function and the
    arguments have values. -/
theorem eval_call_eq_ok_iff (env : Env) (id : Ident) (args : List Expr) (s : Span) (b : Bool) :
    (call id args s).eval env = .ok b ↔
      ∃ (f : Builtin) (bs : List Bool), id.name = f.name ∧
        (∀ m, f.arity? = some m → m = args.length) ∧ evalAll env args = .ok bs ∧
        f.apply bs = .ok b := by
  rcases Builtin.resolve_cases id args.length s with
    ⟨f, hf, harity, hres⟩ | ⟨hnone, hres⟩ | ⟨f, m, hf, hm, hne, hres⟩
  · -- The name has one function only, so the one that is found is the one that is meant.
    have hsame : ∀ g : Builtin, id.name = g.name → f = g :=
      fun g hg => Builtin.name_injective f g (hf.symm.trans hg)
    rcases eval_call_of_resolve env id args s f hres with
      ⟨stop, hall, hcall⟩ | ⟨bs, c, hall, hc, hcall⟩
    · rw [hcall]
      simp only [hall, reduceCtorEq, false_and, and_false, exists_const]
    · rw [hcall, Except.ok.injEq]
      constructor
      · rintro rfl
        exact ⟨f, bs, hf, harity, hall, hc⟩
      · rintro ⟨g, bs', hg, -, hall', hb⟩
        rw [hall, Except.ok.injEq] at hall'
        rw [← hsame g hg, ← hall', hc] at hb
        exact Except.ok.inj hb
  · -- No function has the name.
    rw [eval_call, hres]
    simp only [reduceCtorEq, false_iff]
    rintro ⟨g, bs, hg, -⟩
    exact hnone g hg
  · -- The function of the name takes another number of arguments.
    rw [eval_call, hres]
    simp only [reduceCtorEq, false_iff]
    rintro ⟨g, bs, hg, harity, -⟩
    rw [Builtin.name_injective f g (hf.symm.trans hg)] at hm
    exact hne (harity m hm)

/-- The rules for calls in one: the function of the name is applied to the meanings of the
    arguments. -/
theorem denotes_call_iff (bits : List Bool) (id : Ident) (args : List Expr) (s : Span) (b : Bool) :
    (call id args s).Denotes bits b ↔
      ∃ (f : Builtin) (bs : List Bool), id.name = f.name ∧
        (∀ m, f.arity? = some m → m = args.length) ∧ List.Forall₂ (Denotes bits) args bs ∧
        f.apply bs = .ok b := by
  constructor
  · intro h
    cases h with
    | not _ e _ c hname he =>
        refine ⟨.not, [c], hname, fun m hm => ?_, .cons he .nil, rfl⟩
        exact (Option.some.inj hm).symm
    | and _ _ _ bs hname hes =>
        refine ⟨.and, bs, hname, fun m hm => ?_, hes, Builtin.apply_and bs⟩
        simp only [Builtin.arity?, reduceCtorEq] at hm
    | or _ _ _ bs hname hes =>
        refine ⟨.or, bs, hname, fun m hm => ?_, hes, Builtin.apply_or bs⟩
        simp only [Builtin.arity?, reduceCtorEq] at hm
  · rintro ⟨f, bs, hname, harity, hes, hb⟩
    cases f with
    | not =>
        rcases List.length_eq_one_iff.mp (harity 1 rfl).symm with ⟨e, rfl⟩
        rcases List.forall₂_cons_left_iff.mp hes with ⟨c, cs, he, -, rfl⟩
        rw [← Except.ok.inj hb]
        exact .not id e s c hname he
    | and =>
        rw [Builtin.apply_and, Except.ok.injEq] at hb
        rw [← hb]
        exact .and id args s bs hname hes
    | or =>
        rw [Builtin.apply_or, Except.ok.injEq] at hb
        rw [← hb]
        exact .or id args s bs hname hes

/-- Evaluation finds the meaning of an expression and no other value, by induction on the
    expression. -/
theorem eval_eq_ok_iff (bits : List Bool) (hbits : bits.length ≤ maxArgs) (e : Expr) :
    ∀ b : Bool, e.eval ((varNames bits.length).zip bits) = .ok b ↔ e.Denotes bits b := by
  induction e using induction_args with
  | var id s =>
      intro b
      have hget := Env.get?_letters bits hbits id.name b
      -- A variable has the value that its name is bound to.
      have heval : (var id s).eval ((varNames bits.length).zip bits) = .ok b ↔
          Env.get? ((varNames bits.length).zip bits) id.name = some b := by
        rw [eval_var]
        cases Env.get? ((varNames bits.length).zip bits) id.name with
        | none => simp only [reduceCtorEq]
        | some c => simp only [Except.ok.injEq, Option.some.injEq]
      rw [heval, hget]
      constructor
      · rintro ⟨i, hname, hbit⟩
        exact .var id s i b hname hbit
      · intro h
        cases h with
        | var _ _ i _ hname hbit => exact ⟨i, hname, hbit⟩
  | blank s =>
      intro b
      rw [eval_blank]
      simp only [reduceCtorEq, false_iff]
      intro h
      cases h
  | call id args s ih =>
      intro b
      -- The arguments are compared as a list, each of them by the induction hypothesis.
      have hargs : ∀ bs, evalAll ((varNames bits.length).zip bits) args = .ok bs ↔
          List.Forall₂ (Denotes bits) args bs := by
        intro bs
        rw [evalAll_eq_ok_iff]
        constructor
        · intro h
          exact ((List.forall₂_and_left args bs).mpr ⟨ih, h⟩).imp fun a c hac => (hac.1 c).mp hac.2
        · intro h
          exact ((List.forall₂_and_left args bs).mpr ⟨ih, h⟩).imp fun a c hac => (hac.1 c).mpr hac.2
      rw [eval_call_eq_ok_iff, denotes_call_iff]
      simp only [hargs]

end Expr

/-! ## Faults -/

namespace Expr

/-- The node is not at fault itself, in a program of `n` bits: a variable is one of the
    first `n` letters, and a call is a negation of one argument, a conjunction or a
    disjunction. -/
def Regular (n : Nat) : Expr → Prop
  | .var id _ => ∃ i < n, id.name = letter i
  | .call id args _ => (id.name = Text.ofString "not" ∧ args.length = 1) ∨
      id.name = Text.ofString "and" ∨ id.name = Text.ofString "or"
  | .blank _ => False

instance (n : Nat) : DecidablePred (Regular n)
  | .var id _ => inferInstanceAs (Decidable (∃ i < n, id.name = letter i))
  | .call id args _ => inferInstanceAs (Decidable ((id.name = Text.ofString "not" ∧
      args.length = 1) ∨ id.name = Text.ofString "and" ∨ id.name = Text.ofString "or"))
  | .blank _ => inferInstanceAs (Decidable False)

/-- The fault of a node in a program of `n` bits. A variable is at fault where its name
    stands, and a call as a whole. -/
inductive Offends (n : Nat) : Expr → Fault → Prop
  | unbound (id : Ident) (s : Span) (h : ∀ i < n, id.name ≠ letter i) :
      Offends n (.var id s) ⟨.undefinedVariable id.name, id.span⟩
  | unknown (id : Ident) (args : List Expr) (s : Span) (hnot : id.name ≠ Text.ofString "not")
      (hand : id.name ≠ Text.ofString "and") (hor : id.name ≠ Text.ofString "or") :
      Offends n (.call id args s) ⟨.undefinedFunction id.name, s⟩
  | arity (id : Ident) (args : List Expr) (s : Span) (hname : id.name = Text.ofString "not")
      (hlen : args.length ≠ 1) :
      Offends n (.call id args s) ⟨.arity id.name 1 args.length, s⟩

theorem Solid.of_mem_nodes {e : Expr} (h : e.Solid) : ∀ n ∈ e.nodes, n.Solid := by
  induction h with
  | var id s => simpa using Solid.var id s
  | call id args s hargs ih => exact (forall_nodes_call id args s).mpr ⟨.call id args s hargs, ih⟩

/-- A variable or a call is regular or has a fault, and not both. -/
theorem regular_iff_not_offends (n : Nat) (e : Expr) (h : e.Solid) :
    e.Regular n ↔ ∀ f, ¬ e.Offends n f := by
  cases h with
  | var id s =>
      constructor
      · rintro ⟨i, hi, hname⟩ f hf
        cases hf with
        | unbound _ _ h => exact h i hi hname
      · intro h
        by_contra hirregular
        exact h _ (.unbound id s fun i hi hname => hirregular ⟨i, hi, hname⟩)
  | call id args s hargs =>
      constructor
      · intro hregular f hf
        cases hf with
        | unknown _ _ _ hnot hand hor =>
            rcases hregular with ⟨hname, -⟩ | hname | hname
            · exact hnot hname
            · exact hand hname
            · exact hor hname
        | arity _ _ _ hname hlen =>
            rcases hregular with ⟨-, hone⟩ | hand | hor
            · exact hlen hone
            · exact absurd (hname.symm.trans hand) (by decide)
            · exact absurd (hname.symm.trans hor) (by decide)
      · intro h
        by_contra hirregular
        rw [Regular, not_or, not_or, not_and] at hirregular
        rcases hirregular with ⟨hlen, hand, hor⟩
        -- What is no conjunction and no disjunction has the name of a negation or an unknown one.
        by_cases hnot : id.name = Text.ofString "not"
        · exact h _ (.arity id args s hnot (hlen hnot))
        · exact h _ (.unknown id args s hnot hand hor)

end Expr

namespace Symbols

section

variable (bits : List Bool) (hbits : bits.length ≤ maxArgs)

include hbits

/-- The problem that is found at a node is the fault of the node. -/
theorem problem?_eq_some_iff (e : Expr) (f : Fault) :
    problem? ⟨(varNames bits.length).zip bits, []⟩ e = some f ↔ e.Offends bits.length f := by
  cases e with
  | blank s =>
      simp only [problem?, reduceCtorEq, false_iff]
      intro h
      cases h
  | var id s =>
      rw [problem?, Option.ite_none_left_eq_some, Env.isSome_get?_letters bits hbits,
        Option.some.injEq]
      constructor
      · rintro ⟨hunbound, rfl⟩
        exact .unbound id s fun i hi hname => hunbound ⟨i, hi, hname⟩
      · intro h
        cases h with
        | unbound _ _ h =>
            refine ⟨?_, rfl⟩
            rintro ⟨i, hi, hname⟩
            exact h i hi hname
  | call id args s =>
      rw [problem?]
      rcases Builtin.resolve_cases id args.length s with
        ⟨g, hg, harity, hres⟩ | ⟨hnone, hres⟩ | ⟨g, m, hg, hm, hne, hres⟩
      · -- A function of this name takes these arguments, so neither fault applies.
        rw [hres]
        simp only [reduceCtorEq, false_iff]
        intro h
        cases h with
        | unknown _ _ _ hnot hand hor =>
            cases g with
            | not => exact hnot hg
            | and => exact hand hg
            | or => exact hor hg
        | arity _ _ _ hname hlen =>
            rw [← Builtin.name_injective .not g (hname.symm.trans hg)] at harity
            exact hlen (harity 1 rfl).symm
      · rw [hres, Option.some.injEq]
        constructor
        · rintro rfl
          exact .unknown id args s (hnone .not) (hnone .and) (hnone .or)
        · intro h
          cases h with
          | unknown => rfl
          | arity _ _ _ hname hlen => exact absurd hname (hnone .not)
      · -- Only a negation insists on a number of arguments.
        cases g with
        | and => simp only [Builtin.arity?, reduceCtorEq] at hm
        | or => simp only [Builtin.arity?, reduceCtorEq] at hm
        | not =>
            rw [Builtin.arity?, Option.some.injEq] at hm
            rw [hres, Option.some.injEq, ← hm]
            constructor
            · rintro rfl
              exact .arity id args s hg (by omega)
            · intro h
              cases h with
              | unknown _ _ _ hnot hand hor => exact absurd hg hnot
              | arity => rfl

/-- There is no problem at a node exactly if the node is regular. -/
theorem problem?_eq_none_iff (e : Expr) (he : e.Solid) :
    problem? ⟨(varNames bits.length).zip bits, []⟩ e = none ↔ e.Regular bits.length := by
  rw [Expr.regular_iff_not_offends _ e he, Option.eq_none_iff_forall_ne_some]
  exact forall_congr' fun f => not_congr (problem?_eq_some_iff bits hbits e f)

end

end Symbols

namespace Program

/-- Evaluation stops at the first node that offends, a node coming before its arguments and
    these from left to right. -/
theorem eval_error_iff_offends (p : Program) (hargs : p.args.length ≤ maxArgs)
    (hsolid : p.expr.Solid) (stop : Stop) : p.eval = .error stop ↔
      ∃ before n after f, p.expr.nodes = before ++ n :: after ∧
        (∀ m ∈ before, m.Regular p.args.length) ∧ n.Offends p.args.length f ∧
        .fault f = stop := by
  have hnone : ∀ m ∈ p.expr.nodes,
      Symbols.problem? ⟨(varNames p.args.length).zip p.args, []⟩ m = none ↔
        m.Regular p.args.length := fun m hm =>
    Symbols.problem?_eq_none_iff p.args hargs m (hsolid.of_mem_nodes m hm)
  -- Evaluation stops at the first of the faults that a walk over the nodes meets.
  rw [p.eval_eq hargs, Expr.eval_error_iff _ p.expr hsolid stop, Expr.faults,
    List.head?_filterMap, Option.map_eq_some_iff]
  simp only [List.findSome?_eq_some_iff, Symbols.problem?_eq_some_iff p.args hargs]
  constructor
  · rintro ⟨f, ⟨before, n, after, hsplit, hn, hbefore⟩, hstop⟩
    refine ⟨before, n, after, f, hsplit, fun m hm => ?_, hn, hstop⟩
    exact (hnone m (hsplit ▸ List.mem_append_left _ hm)).mp (hbefore m hm)
  · rintro ⟨before, n, after, f, hsplit, hbefore, hn, hstop⟩
    refine ⟨f, ⟨before, n, after, hsplit, hn, fun m hm => ?_⟩, hstop⟩
    exact (hnone m (hsplit ▸ List.mem_append_left _ hm)).mpr (hbefore m hm)

/-- A program has a value if and only if all its nodes are regular. -/
theorem exists_eval_iff_regular (p : Program) (hargs : p.args.length ≤ maxArgs)
    (hsolid : p.expr.Solid) :
    (∃ b, p.eval = .ok b) ↔ ∀ n ∈ p.expr.nodes, n.Regular p.args.length := by
  rw [p.eval_eq hargs, Expr.exists_eval_iff_faults_nil _ p.expr hsolid, Expr.faults,
    List.filterMap_eq_nil_iff]
  exact forall₂_congr fun n hn =>
    Symbols.problem?_eq_none_iff p.args hargs n (hsolid.of_mem_nodes n hn)

end Program

/-! ## Verdicts -/

/-- The value that is returned beside a fault is false. It is what every return of a fault
    says, so no induction is needed: a call that hands on the fault of an argument drops
    the value that came with it. -/
theorem Expr.value_of_fault (env : Env) (e : Expr) (v : Bool) (f : Fault)
    (h : e.verdict env = .ok ⟨v, some f⟩) : v = false := by
  cases e with
  | var id s =>
      rw [verdict] at h
      cases hget : env.get? id.name with
      | none =>
          rw [hget] at h
          exact (congrArg Verdict.value (Except.ok.inj h)).symm
      | some b =>
          rw [hget] at h
          simp only [Except.ok.injEq, Verdict.mk.injEq, reduceCtorEq, and_false] at h
  | blank s => simp only [verdict, reduceCtorEq] at h
  | call id args s =>
      rw [verdict] at h
      cases hres : Builtin.resolve id args.length s with
      | error g =>
          rw [hres] at h
          exact (congrArg Verdict.value (Except.ok.inj h)).symm
      | ok g =>
          rw [hres] at h
          rcases hall : verdicts env args with b | g' | bs
          · simp only [hall, reduceCtorEq] at h
          · simp only [hall, Except.ok.injEq, Verdict.mk.injEq] at h
            exact h.1.symm
          · -- A function has a value or breaks off, so no fault comes from it.
            simp only [hall] at h
            cases happly : g.apply bs with
            | error b => simp only [happly, Except.map, reduceCtorEq] at h
            | ok b =>
                simp only [happly, Except.map, Except.ok.injEq, Verdict.mk.injEq, reduceCtorEq,
                  and_false] at h

namespace Program

/-- A value is returned without a fault exactly where evaluation has that value. -/
theorem verdict_eq_value_iff (p : Program) (b : Bool) :
    p.verdict = .ok ⟨b, none⟩ ↔ p.eval = .ok b := by
  rw [eval]
  rcases p.verdict with breach | ⟨c, f | f⟩
  · simp only [Except.map, Stop.settle, reduceCtorEq]
  · simp only [Except.map, Verdict.answer, Stop.settle, Except.ok.injEq, Verdict.mk.injEq, and_true]
  · simp only [Except.map, Verdict.answer, Stop.settle, Except.ok.injEq, Verdict.mk.injEq,
      reduceCtorEq, and_false]

theorem value_of_fault (p : Program) (v : Bool) (f : Fault)
    (h : p.verdict = .ok ⟨v, some f⟩) : v = false := by
  -- The environment of a program is built or breaks off, so the fault is the expression's.
  rw [verdict, Except.bind_eq_ok_iff] at h
  rcases h with ⟨env, -, h⟩
  exact p.expr.value_of_fault env v f h

/-- A fault is returned where evaluation stops, and false beside it. -/
theorem verdict_eq_fault_iff (p : Program) (v : Bool) (f : Fault) :
    p.verdict = .ok ⟨v, some f⟩ ↔ v = false ∧ p.eval = .error (.fault f) := by
  constructor
  · intro h
    exact ⟨p.value_of_fault v f h, by rw [eval, h]; rfl⟩
  · rintro ⟨rfl, h⟩
    rw [eval] at h
    -- An outcome forgets the value beside a fault, but there is only one that it can be.
    rcases hverdict : p.verdict with breach | ⟨c, g | g⟩
    · simp only [hverdict, Except.map, Stop.settle, Except.error.injEq, reduceCtorEq] at h
    · simp only [hverdict, Except.map, Verdict.answer, Stop.settle, reduceCtorEq] at h
    · simp only [hverdict, Except.map, Verdict.answer, Stop.settle, Except.error.injEq,
        Stop.fault.injEq] at h
      rw [p.value_of_fault c g hverdict, h]

/-- What evaluating a program returns. There is a value and no fault exactly if every
    variable is one of the declared letters and every call fits its function, and it is the
    meaning of the expression. Otherwise false is returned, with the fault of the first node
    that offends, and the bits have no say in that. -/
theorem eval_finds_meaning (p : Program) (hargs : p.args.length ≤ maxArgs)
    (hsolid : p.expr.Solid) :
    ((∃ b, p.verdict = .ok ⟨b, none⟩) ↔ ∀ n ∈ p.expr.nodes, n.Regular p.args.length) ∧
    (∀ b, p.verdict = .ok ⟨b, none⟩ ↔ p.expr.Denotes p.args b) ∧
    ((∃ n ∈ p.expr.nodes, ¬ n.Regular p.args.length) →
      ∃ before n after f, p.expr.nodes = before ++ n :: after ∧
        (∀ m ∈ before, m.Regular p.args.length) ∧ n.Offends p.args.length f ∧
        ∀ bits : List Bool, bits.length = p.args.length →
          (⟨bits, p.expr⟩ : Program).verdict = .ok ⟨false, some f⟩) ∧
    ∀ v f, p.verdict = .ok ⟨v, some f⟩ ↔ v = false ∧
      ∃ before n after, p.expr.nodes = before ++ n :: after ∧
        (∀ m ∈ before, m.Regular p.args.length) ∧ n.Offends p.args.length f := by
  simp only [verdict_eq_value_iff, verdict_eq_fault_iff]
  refine ⟨p.exists_eval_iff_regular hargs hsolid, fun b => ?_, ?_, fun v f => ?_⟩
  · rw [p.eval_eq hargs]
    exact Expr.eval_eq_ok_iff p.args hargs p.expr b
  · rintro ⟨m, hm, hirregular⟩
    -- There is no value, and what there is instead does not come from the bits.
    have hstop : ∃ stop, p.eval = .error stop := by
      cases heval : p.eval with
      | error stop => exact ⟨stop, rfl⟩
      | ok b =>
          have hregular := (p.exists_eval_iff_regular hargs hsolid).mp ⟨b, heval⟩
          exact absurd (hregular m hm) hirregular
    rcases hstop with ⟨stop, hstop⟩
    rcases (p.eval_error_iff_offends hargs hsolid stop).mp hstop with
      ⟨before, n, after, f, hsplit, hbefore, hn, rfl⟩
    refine ⟨before, n, after, f, hsplit, hbefore, hn, fun bits hlen => ⟨trivial, ?_⟩⟩
    have hbits := eval_error_iff_offends ⟨bits, p.expr⟩ (by simp only; omega) hsolid (.fault f)
    simp only [hlen] at hbits
    exact hbits.mpr ⟨before, n, after, f, hsplit, hbefore, hn, rfl⟩
  · rw [p.eval_error_iff_offends hargs hsolid]
    simp only [Stop.fault.injEq, exists_eq_right_right, exists_and_left]

theorem eval_finds_meaning_faulty :
    faulty.args.length ≤ maxArgs ∧ faulty.expr.Solid ∧
    (∃ n ∈ faulty.expr.nodes, ¬ n.Regular 1) ∧
    ∀ bits : List Bool, bits.length = 1 → (⟨bits, faulty.expr⟩ : Program).verdict =
      .ok ⟨false, some ⟨.arity (Text.ofString "not") 1 2, ⟨10, 19⟩⟩⟩ := by
  have hirregular : ∃ n ∈ faulty.expr.nodes, ¬ n.Regular 1 := by decide
  rcases (eval_finds_meaning faulty (by decide) solid_faulty).2.2.1 hirregular with
    ⟨-, -, -, f, -, -, -, hbits⟩
  -- The declared bit shows which fault it is, and the other bit has the same one.
  have hf : faulty.verdict = .ok ⟨false, some ⟨.arity (Text.ofString "not") 1 2, ⟨10, 19⟩⟩⟩ := rfl
  have hone := hbits faulty.args rfl
  rw [show (⟨faulty.args, faulty.expr⟩ : Program) = faulty from rfl, hf, Except.ok.injEq,
    Verdict.mk.injEq, Option.some.injEq] at hone
  rw [← hone.2] at hbits
  exact ⟨by decide, solid_faulty, hirregular, hbits⟩

end Program

end BitLogic
