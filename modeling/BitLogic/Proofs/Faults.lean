import BitLogic.Check
import BitLogic.Eval
import BitLogic.Proofs.Basics

/-!
# The Faults of an Expression

Which fault a program stops at, without running it.

Evaluation and checking meet the nodes of an expression in different ways. An
evaluator recurses and leaves at the first fault, while a check walks over every
node, carries on behind a fault and drops the ones it has reported. What the two
have in common is the list of all faults, one per faulty node and a node before its
arguments. `Expr.faults` is that list. An evaluation stops at its head, and a check
reports its head first, so comparing the two never needs both recursions at once.

A node asks of an environment only whether it binds a name. That is why the bits of
a program have no say in whether it fails: `problem?_congr` is the whole reason.

Blank nodes are no faults. They make an evaluator break off and a check looks past
them, so the statements here are about solid expressions, which have none.

## Main definitions

* `Expr.Solid`: Every node is a variable or a call.
* `Expr.nodes`: All nodes, a node before its arguments.
* `Expr.faults`: The faults of all nodes, in the same order.
* `Program.faulty`: A program with several faults.

## Theorems

* `Builtin.ofName?_eq_some_iff`, `Builtin.name_injective`: Functions and names belong
  together.
* `Builtin.resolve_cases`: What a call can mean.
* `Builtin.arity_of_resolve`: What is known of a call that means a function.
* `Builtin.exists_apply`: A function has a value at every number of bits it takes.
* `Expr.nodes_walkAll_of`, `Expr.nodes_walk`: The depth of a walk does not change the
  nodes it meets.
* `Expr.nodes_walkAll`: A walk over several trees meets the nodes of each.
* `Expr.nodes_var`, `Expr.nodes_call`, `Expr.forall_nodes_call`: The nodes of a call are
  itself and those of its arguments.
* `Expr.faults_var`, `Expr.faults_call`: The faults of a call are its own and those of
  its arguments.
* `Expr.problem?_congr`: Only the names that are bound matter.
* `Expr.length_of_evalAll`: There is one value per argument.
* `Expr.eval_call_of_resolve`: A call that means a function stops only where its
  arguments do.
* `Expr.evalAll_error_iff`: A list of arguments stops at its first fault.
* `Expr.eval_error_iff`: Evaluation stops at the first fault.
* `Expr.exists_eval_iff_faults_nil`: There is a value when there is no fault.
* `Symbols.report_bindings`, `Symbols.visit_bindings`: A walk binds no names.
* `Symbols.head?_report`, `Symbols.problem?_bindings`: What a report keeps, and what a
  problem depends on.
* `Symbols.head?_foldl_visit`: A walk keeps the first fault it has met.
* `Env.isSome_get?_zip`: Which names a list of bits binds.
* `Env.ofArgs_eq`, `length_varNames`: The environment of a program that has not too many
  bits.
* `Program.eval_eq`, `Program.eval_withArgs`: The value of a program is that of its
  expression.
* `Program.eval_error_iff_first`: Where evaluation of a program stops.
* `Program.check_eq`: A check reports the first fault first.
* `Program.solid_faulty`: The program with several faults has no blank node.
-/

namespace BitLogic

namespace Builtin

/-- The function of a name is the one that has the name. -/
theorem ofName?_eq_some_iff (t : Text) (f : Builtin) : ofName? t = some f ↔ t = f.name := by
  constructor
  · intro h
    have hfound := List.find?_some h
    exact (beq_iff_eq.mp hfound).symm
  · rintro rfl
    cases f <;> decide

theorem name_injective (f g : Builtin) (h : f.name = g.name) : f = g := by
  have hf := (ofName?_eq_some_iff f.name f).mpr rfl
  rw [(ofName?_eq_some_iff f.name g).mpr h, Option.some.injEq] at hf
  exact hf.symm

/-- What a call comes to: the function of its name, if the number of arguments is one that
    it takes, or a fault, because there is no such function or it takes another number. -/
theorem resolve_cases (id : Ident) (n : Nat) (s : Span) :
    (∃ f : Builtin, id.name = f.name ∧ (∀ m, f.arity? = some m → m = n) ∧
        resolve id n s = .ok f) ∨
      ((∀ f : Builtin, id.name ≠ f.name) ∧
        resolve id n s = .error ⟨.undefinedFunction id.name, s⟩) ∨
      ∃ (f : Builtin) (m : Nat), id.name = f.name ∧ f.arity? = some m ∧ m ≠ n ∧
        resolve id n s = .error ⟨.arity id.name m n, s⟩ := by
  unfold resolve
  cases hf : ofName? id.name with
  -- No function has the name, or one of its name would have been found.
  | none =>
      refine Or.inr (Or.inl ⟨fun f hname => ?_, rfl⟩)
      rw [(ofName?_eq_some_iff id.name f).mpr hname] at hf
      simp only [reduceCtorEq] at hf
  | some f =>
      -- The message has the name of the function that was found, which is the one looked for.
      rw [(ofName?_eq_some_iff id.name f).mp hf]
      cases harity : f.arity? with
      | none =>
          simp only [harity]
          refine Or.inl ⟨f, rfl, fun m hm => ?_, rfl⟩
          rw [harity] at hm
          simp only [reduceCtorEq] at hm
      | some m =>
          simp only [harity]
          -- A function that insists on a number has that number or a fault.
          by_cases hn : m = n
          · rw [if_pos hn]
            refine Or.inl ⟨f, rfl, fun k hk => ?_, rfl⟩
            rw [harity, Option.some.injEq] at hk
            omega
          · rw [if_neg hn]
            exact Or.inr (Or.inr ⟨f, m, rfl, harity, hn, rfl⟩)

/-- A call that means a function has its name and a number of arguments that it takes. -/
theorem arity_of_resolve (id : Ident) (n : Nat) (s : Span) (f : Builtin)
    (h : resolve id n s = .ok f) : id.name = f.name ∧ ∀ m, f.arity? = some m → m = n := by
  rcases resolve_cases id n s with ⟨g, hname, harity, hres⟩ | ⟨-, hres⟩ | ⟨g, m, -, -, -, hres⟩
  · rw [h, Except.ok.injEq] at hres
    rw [hres]
    exact ⟨hname, harity⟩
  · rw [h] at hres
    simp only [reduceCtorEq] at hres
  · rw [h] at hres
    simp only [reduceCtorEq] at hres

/-- A function has a value at every number of bits that it takes. A negation is the only
    one that could break off, and it takes one bit. -/
theorem exists_apply (f : Builtin) (bs : List Bool) (h : ∀ m, f.arity? = some m → m = bs.length) :
    ∃ b, f.apply bs = .ok b := by
  cases f with
  | not =>
      rcases List.length_eq_one_iff.mp (h 1 rfl).symm with ⟨b, rfl⟩
      exact ⟨!b, rfl⟩
  | and => exact ⟨_, rfl⟩
  | or => exact ⟨_, rfl⟩

end Builtin

namespace Expr

/-- Every node is a variable or a call. -/
inductive Solid : Expr → Prop
  | var (id : Ident) (s : Span) : Solid (.var id s)
  | call (id : Ident) (args : List Expr) (s : Span) (h : ∀ a ∈ args, Solid a) :
      Solid (.call id args s)

/-- The nodes of an expression, a node before its arguments. -/
def nodes (e : Expr) : List Expr := e.visits.map Visit.node

/-- The faults of all nodes in an environment, a node before its arguments. -/
def faults (env : Env) (e : Expr) : List Fault :=
  e.nodes.filterMap (Symbols.problem? ⟨env, []⟩)

theorem nodes_walkAll_of (d d' : Nat) (es : List Expr)
    (h : ∀ e ∈ es, (walk (fun _ _ => true) d e).map Visit.node =
      (walk (fun _ _ => true) d' e).map Visit.node) :
    (walkAll (fun _ _ => true) d es).map Visit.node =
      (walkAll (fun _ _ => true) d' es).map Visit.node := by
  induction es with
  | nil => rfl
  | cons e es ih =>
      rw [walkAll, walkAll, List.map_append, List.map_append,
        h e List.mem_cons_self, ih fun a ha => h a (List.mem_cons_of_mem e ha)]

/-- The depth at which a walk starts is recorded in its visits and changes nothing
    else. -/
theorem nodes_walk (e : Expr) : ∀ d d' : Nat, (walk (fun _ _ => true) d e).map Visit.node =
    (walk (fun _ _ => true) d' e).map Visit.node := by
  induction e using induction_args with
  | var id s => intro d d'; rfl
  | blank s => intro d d'; rfl
  | call id args s ih =>
      intro d d'
      -- The node is the same, and its arguments are met one level deeper in either walk.
      simp only [walk, if_true, List.map_cons]
      rw [nodes_walkAll_of (d + 1) (d' + 1) args fun a ha => ih a ha _ _]

/-- A walk over several trees meets the nodes of one after the other. -/
theorem nodes_walkAll (d : Nat) (es : List Expr) :
    (walkAll (fun _ _ => true) d es).map Visit.node = es.flatMap nodes := by
  induction es with
  | nil => rfl
  | cons e es ih =>
      rw [walkAll, List.map_append, ih, List.flatMap_cons, nodes_walk e d 0]
      rfl

@[simp]
theorem nodes_var (id : Ident) (s : Span) : (Expr.var id s).nodes = [.var id s] := rfl

@[simp]
theorem nodes_call (id : Ident) (args : List Expr) (s : Span) :
    (Expr.call id args s).nodes = .call id args s :: args.flatMap nodes := by
  rw [← nodes_walkAll 1 args]
  rfl

/-- What holds of all nodes of a call holds of the call and of all nodes of its arguments. -/
theorem forall_nodes_call {P : Expr → Prop} (id : Ident) (args : List Expr) (s : Span) :
    (∀ n ∈ (Expr.call id args s).nodes, P n) ↔
      P (.call id args s) ∧ ∀ a ∈ args, ∀ n ∈ a.nodes, P n := by
  rw [nodes_call, List.forall_mem_cons, List.forall_mem_flatMap]

@[simp]
theorem faults_var (env : Env) (id : Ident) (s : Span) :
    (Expr.var id s).faults env = (Symbols.problem? ⟨env, []⟩ (.var id s)).toList := by
  simp [faults, List.filterMap_cons_toList]

/-- The faults of a call are its own fault, if it has one, and the faults of its
    arguments in order. -/
@[simp]
theorem faults_call (env : Env) (id : Ident) (args : List Expr) (s : Span) :
    (Expr.call id args s).faults env =
      (Symbols.problem? ⟨env, []⟩ (.call id args s)).toList ++ args.flatMap (faults env) := by
  simp only [faults, nodes_call, List.filterMap_cons_toList, List.filterMap_flatMap]
  rfl

/-- A node asks the environment only whether its name is bound. -/
theorem problem?_congr (env env' : Env)
    (h : ∀ name, (env.get? name).isSome = (env'.get? name).isSome) (e : Expr) :
    Symbols.problem? ⟨env, []⟩ e = Symbols.problem? ⟨env', []⟩ e := by
  cases e with
  | var id s => simp only [Symbols.problem?, h id.name]
  | call id args s => rfl
  | blank s => rfl

theorem length_of_evalAll (env : Env) (es : List Expr) : ∀ bs : List Bool,
    evalAll env es = .ok bs → bs.length = es.length := by
  induction es with
  | nil =>
      intro bs h
      rw [evalAll_nil, Except.ok.injEq] at h
      rw [← h]
      rfl
  | cons e es ih =>
      intro bs h
      cases hev : e.eval env with
      | error stop => simp [hev] at h
      | ok b =>
          cases hall : evalAll env es with
          | error stop => simp [hev, hall, Except.map] at h
          | ok cs =>
              have hbs : b :: cs = bs := by simpa [hev, hall, Except.map] using h
              rw [← hbs, List.length_cons, List.length_cons, ih cs hall]

/-- A call that means a function gets to the values of its arguments, and the function
    has a value there. So the call stops where its arguments stop, and nowhere else. -/
theorem eval_call_of_resolve (env : Env) (id : Ident) (args : List Expr) (s : Span) (f : Builtin)
    (h : Builtin.resolve id args.length s = .ok f) :
    (∃ stop, evalAll env args = .error stop ∧ (call id args s).eval env = .error stop) ∨
      ∃ bs b, evalAll env args = .ok bs ∧ f.apply bs = .ok b ∧
        (call id args s).eval env = .ok b := by
  rw [eval_call, h]
  cases hall : evalAll env args with
  | error stop => exact Or.inl ⟨stop, rfl, rfl⟩
  | ok bs =>
      -- There are as many values as arguments, and that number is one that the function takes.
      have harity := (Builtin.arity_of_resolve id args.length s f h).2
      rw [← length_of_evalAll env args bs hall] at harity
      rcases f.exists_apply bs harity with ⟨b, hb⟩
      refine Or.inr ⟨bs, b, rfl, hb, ?_⟩
      simp only [bind, Except.bind, hb]
      rfl

/-- A list of arguments stops where its first argument that stops does. -/
theorem evalAll_error_iff (env : Env) (es : List Expr)
    (h : ∀ e ∈ es, ∀ stop, e.eval env = .error stop ↔
      (e.faults env).head?.map Stop.fault = some stop) (stop : Stop) :
    evalAll env es = .error stop ↔
      (es.flatMap (faults env)).head?.map Stop.fault = some stop := by
  induction es with
  | nil => simp
  | cons e es ih =>
      have ih := ih fun a ha => h a (List.mem_cons_of_mem e ha)
      have he := h e List.mem_cons_self
      rw [List.flatMap_cons, List.head?_append, evalAll_cons]
      cases hev : e.eval env with
      | error stop' =>
          obtain ⟨f, hf, rfl⟩ := Option.map_eq_some_iff.mp ((he stop').mp hev)
          simp [hf]
      | ok b =>
          -- The head evaluates, so it has no fault and the rest decides.
          have hnone : (e.faults env).head? = none := by
            cases hf : (e.faults env).head? with
            | none => rfl
            | some f =>
                have := (he (.fault f)).mpr (by rw [hf]; rfl)
                rw [hev] at this
                cases this
          rw [hnone, Option.none_or, ← ih]
          exact Except.map_eq_error_iff _ _ stop

/-- Evaluation stops exactly at the first fault, a call being at fault before its
    arguments. -/
theorem eval_error_iff (env : Env) (e : Expr) (h : e.Solid) (stop : Stop) :
    e.eval env = .error stop ↔ (e.faults env).head?.map Stop.fault = some stop := by
  induction h generalizing stop with
  | var id s =>
      rw [faults_var, eval_var, Symbols.problem?]
      cases env.get? id.name with
      | none => simp
      | some b => simp
  | call id args s _ ih =>
      -- Both sides look the function up before they look at an argument.
      rw [faults_call, List.head?_append, Symbols.problem?]
      cases hres : Builtin.resolve id args.length s with
      | error f =>
          rw [eval_call, hres]
          simp
      | ok f =>
          simp only [Option.toList_none, List.head?_nil, Option.none_or]
          rw [← evalAll_error_iff env args ih stop]
          rcases eval_call_of_resolve env id args s f hres with
            ⟨stop', hall, hcall⟩ | ⟨bs, b, hall, -, hcall⟩
          · rw [hall, hcall, Except.error.injEq, Except.error.injEq]
          · rw [hall, hcall]
            simp only [reduceCtorEq]

/-- There is a value if and only if there is no fault. -/
theorem exists_eval_iff_faults_nil (env : Env) (e : Expr) (h : e.Solid) :
    (∃ b, e.eval env = .ok b) ↔ e.faults env = [] := by
  have herr := eval_error_iff env e h
  rw [← List.head?_eq_none_iff]
  constructor
  · rintro ⟨b, hb⟩
    cases hf : (e.faults env).head? with
    | none => rfl
    | some f =>
        have hstop := (herr (.fault f)).mpr (by rw [hf]; rfl)
        rw [hb] at hstop
        simp only [reduceCtorEq] at hstop
  · intro hnone
    cases hev : e.eval env with
    | ok b => exact ⟨b, rfl⟩
    | error stop =>
        have hsome := (herr stop).mp hev
        rw [hnone] at hsome
        simp only [Option.map_none, reduceCtorEq] at hsome

end Expr

namespace Symbols

@[simp]
theorem report_bindings (s : Symbols) (f : Fault) : (s.report f).bindings = s.bindings := by
  unfold report
  split <;> rfl

@[simp]
theorem visit_bindings (s : Symbols) (v : Visit) : (s.visit v).bindings = s.bindings := by
  unfold visit
  split
  · exact report_bindings s _
  · rfl

/-- Reporting keeps the first fault. Only a later fault is ever dropped, because
    what makes it a repetition is an earlier one. -/
theorem head?_report (s : Symbols) (f : Fault) :
    (s.report f).problems.head? = (s.problems ++ [f]).head? := by
  unfold report
  split
  · -- A repetition repeats something, so there is a head.
    next hany =>
    cases hp : s.problems with
    | nil => rw [hp] at hany; simp at hany
    | cons g gs => rfl
  · rfl

/-- The problem of a node has nothing to do with those reported before. -/
theorem problem?_bindings (s : Symbols) (e : Expr) :
    s.problem? e = problem? ⟨s.bindings, []⟩ e := by
  cases e <;> rfl

/-- A walk keeps the first problem there was, or takes the first it meets. -/
theorem head?_foldl_visit (s : Symbols) (vs : List Visit) :
    (vs.foldl visit s).problems.head? =
      (s.problems ++ (vs.map Visit.node).filterMap (problem? ⟨s.bindings, []⟩)).head? := by
  induction vs generalizing s with
  | nil => simp
  | cons v vs ih =>
      rw [List.foldl_cons, ih, visit_bindings, List.map_cons, List.filterMap_cons_toList,
        visit, problem?_bindings]
      cases problem? ⟨s.bindings, []⟩ v.node with
      | none => rfl
      | some f =>
          -- The fault may be dropped as a repetition, and then there is a head already.
          simp only [Option.toList_some, List.head?_append, head?_report, Option.or_assoc,
            List.head?_cons]

end Symbols

/-! ## Programs -/

/-- A list of bits binds exactly the names that stand beside it. -/
theorem Env.isSome_get?_zip (name : Text) (names : List Text) : ∀ bits : List Bool,
    names.length = bits.length →
      (Env.get? (names.zip bits) name).isSome = decide (name ∈ names) := by
  induction names with
  | nil => intro bits _; rfl
  | cons n names ih =>
      intro bits hlen
      cases bits with
      | nil => simp only [List.length_cons, List.length_nil] at hlen; omega
      | cons b bits =>
          simp only [List.length_cons, Nat.add_right_cancel_iff] at hlen
          have hrest := ih bits hlen
          unfold Env.get? at hrest ⊢
          rw [List.zip_cons_cons, List.lookup_cons]
          -- The name stands first, or it is bound behind the first or not at all.
          by_cases hn : name = n
          · rw [hn, beq_self_eq_true]
            simp
          · rw [beq_eq_false_iff_ne.mpr hn, hrest]
            simp only [List.mem_cons, hn, false_or]

/-- The environment of bits that are not too many: the first letters, in order. -/
theorem Env.ofArgs_eq (args : List Bool) (h : args.length ≤ maxArgs) :
    Env.ofArgs args = .ok ((varNames args.length).zip args) := by
  rw [Env.ofArgs, if_neg (by omega)]

@[simp]
theorem length_varNames (n : Nat) : (varNames n).length = n := by
  rw [varNames, List.length_map, List.length_range]

/-- The value of a program is the value of its expression at the declared bits. -/
theorem Program.eval_eq (p : Program) (hargs : p.args.length ≤ maxArgs) :
    p.eval = p.expr.eval ((varNames p.args.length).zip p.args) :=
  p.eval_of_ofArgs _ (Env.ofArgs_eq p.args hargs)

/-- The value of a program at other bits is the value of its expression there. -/
theorem Program.eval_withArgs (p : Program) (bits : List Bool) (hlen : bits.length = p.args.length)
    (hargs : p.args.length ≤ maxArgs) : (⟨bits, p.expr⟩ : Program).eval =
      p.expr.eval ((varNames p.args.length).zip bits) := by
  rw [eval_eq ⟨bits, p.expr⟩ (by simp only; omega), hlen]

/-- Evaluation of a program stops at the first fault of its expression. -/
theorem Program.eval_error_iff_first (p : Program) (hargs : p.args.length ≤ maxArgs)
    (hsolid : p.expr.Solid) (stop : Stop) : p.eval = .error stop ↔
      (p.expr.faults ((varNames p.args.length).zip p.args)).head?.map Stop.fault = some stop := by
  rw [p.eval_eq hargs]
  exact Expr.eval_error_iff _ p.expr hsolid stop

/-- A check reports the first fault first, and has something to report only if there is
    one. -/
theorem Program.check_eq (p : Program) (env : Env) (henv : Env.ofArgs p.args = .ok env) :
    ∃ problems, p.check = .ok problems ∧ problems.head? = (p.expr.faults env).head? := by
  refine ⟨_, by rw [Program.check, Symbols.ofArgs, henv]; rfl, ?_⟩
  exact Symbols.head?_foldl_visit ⟨env, []⟩ p.expr.visits

namespace Program

/-- The program `or(A, not(B, C))` with one bit: the call of `not` is at fault, and so
    are both its arguments. -/
def faulty : Program :=
  let name (s : String) (n : Int) : Ident := ⟨Text.ofString s, ⟨n, n + s.length⟩⟩
  ⟨[true], .call (name "or" 4) [.var (name "A" 7) ⟨7, 8⟩,
    .call (name "not" 10) [.var (name "B" 14) ⟨14, 15⟩, .var (name "C" 17) ⟨17, 18⟩] ⟨10, 19⟩]
    ⟨4, 20⟩⟩

theorem solid_faulty : faulty.expr.Solid := by
  refine .call _ _ _ ?_
  simp only [List.forall_mem_cons]
  refine ⟨.var _ _, .call _ _ _ ?_, List.forall_mem_nil _⟩
  simp only [List.forall_mem_cons]
  exact ⟨.var _ _, .var _ _, List.forall_mem_nil _⟩

end Program

end BitLogic
