import BitLogic.Proofs.Meaning
import BitLogic.Proofs.Nesting

/-!
# Every Problem Is Reported

A check drops a fault if one with the same place and the same wording has been reported.
On the program of a source it never does: the problems of a check are the faults of all
nodes that offend, one for each of them, in the order in which the nodes are met.

The wording does not matter for this. A fault lies where its node does (`span_of_offends`),
and no two nodes of a parsed tree share a place, so there is nothing that a fault could
repeat. The walk is followed one node at a time. A step appends the fault of its node, as
long as that is at a new place (`problems_visit`), and the places stay different for the
nodes to come, which is the invariant of the run (`problems_foldl_visit`).

The tree matters, though. Programs built by hand may have two nodes at one place, and there
a check does drop faults.

## Theorems

* `Symbols.problems_visit`: A fault at a new place is reported.
* `Symbols.problems_foldl_visit`: A walk that meets no place twice reports all faults.
* `Expr.span_of_offends`: A fault lies where its node does.
* `Expr.faults_increase`: The faults of nodes in place are in order.
* `Expr.forall₂_offends_iff`: The faults of a list of nodes, one for each that offends.
* `check_eq_faults`: A check of a source finds all faults.
* `check_reports_every_problem`: What the problems of a source are.
* `parse_troubled`, `check_reports_every_problem_troubled`: A source with one problem
  below another.
-/

namespace BitLogic

/-! ## Walks that report everything -/

namespace Symbols

/-- A step of the walk reports the fault of its node, if it is at a new place. -/
theorem problems_visit (s : Symbols) (v : Visit)
    (h : ∀ f ∈ (problem? ⟨s.bindings, []⟩ v.node).toList, ∀ g ∈ s.problems, g.span ≠ f.span) :
    (s.visit v).problems = s.problems ++ (problem? ⟨s.bindings, []⟩ v.node).toList := by
  rw [visit, problem?_bindings]
  cases hproblem : problem? ⟨s.bindings, []⟩ v.node with
  | none => exact (List.append_nil _).symm
  | some f =>
      rw [hproblem, Option.toList_some, List.forall_mem_singleton] at h
      -- A fault that has been reported would be at the same place.
      have hnew :
          ¬ s.problems.any (fun g => g.span == f.span && g.message == f.message) = true := by
        intro hany
        rw [List.any_eq_true] at hany
        rcases hany with ⟨g, hg, hsame⟩
        rw [Bool.and_eq_true, beq_iff_eq] at hsame
        exact h g hg hsame.1
      simp only [report]
      rw [if_neg hnew, Option.toList_some]

/-- A walk reports the faults of all its nodes if no two of them, nor one of them and one
    that has been reported, are at the same place. -/
theorem problems_foldl_visit (vs : List Visit) : ∀ s : Symbols,
    (s.problems ++ (vs.map Visit.node).filterMap (problem? ⟨s.bindings, []⟩)).Pairwise
        (fun f g => f.span ≠ g.span) →
      (vs.foldl visit s).problems =
        s.problems ++ (vs.map Visit.node).filterMap (problem? ⟨s.bindings, []⟩) := by
  induction vs with
  | nil =>
      intro s _
      exact (List.append_nil _).symm
  | cons v vs ih =>
      intro s hapart
      rw [List.map_cons, List.filterMap_cons_toList] at hapart ⊢
      have hstep : (s.visit v).problems =
          s.problems ++ (problem? ⟨s.bindings, []⟩ v.node).toList := by
        refine problems_visit s v fun f hf g hg => ?_
        exact (List.pairwise_append.mp hapart).2.2 g hg f (List.mem_append_left _ hf)
      -- What has been reported by now is what the rest of the walk starts from.
      have hrest := ih (s.visit v)
      rw [visit_bindings, hstep, List.append_assoc] at hrest
      exact hrest hapart

end Symbols

/-! ## Faults of nodes in place -/

namespace Expr

/-- A fault lies where its node does. -/
theorem span_of_offends (src : Text) (n : Nat) (e : Expr) (f : Fault) (hplaced : e.Placed src)
    (h : e.Offends n f) : f.span = e.span := by
  cases h with
  | unbound id s _ =>
      cases hplaced with
      | var _ hid => rfl
  | unknown id args s _ _ _ => rfl
  | arity id args s _ _ => rfl

section

variable (bits : List Bool) (hbits : bits.length ≤ maxArgs)

include hbits

/-- The faults of nodes in place start one behind the other. -/
theorem faults_increase (src : Text) (e : Expr) (h : ∀ n ∈ e.nodes, n.Placed src) :
    (e.faults ((varNames bits.length).zip bits)).Pairwise
      fun f g => f.span.start < g.span.start := by
  rw [faults, List.pairwise_filterMap]
  -- Faults lie where their nodes do, and the nodes are met from left to right.
  refine (starts_increase src e h).1.imp_of_mem ?_
  intro a b ha hb hlt f hf g hg
  rw [Symbols.problem?_eq_some_iff bits hbits] at hf hg
  rw [span_of_offends src _ a f (h a ha) hf, span_of_offends src _ b g (h b hb) hg]
  exact hlt

/-- The faults of nodes are one for each node that offends, and no other list is. -/
theorem forall₂_offends_iff (ns : List Expr) (hns : ∀ n ∈ ns, n.Solid) : ∀ fs : List Fault,
    List.Forall₂ (Offends bits.length) (ns.filter fun n => ¬ n.Regular bits.length) fs ↔
      fs = ns.filterMap (Symbols.problem? ⟨(varNames bits.length).zip bits, []⟩) := by
  induction ns with
  | nil =>
      intro fs
      rw [List.filter_nil, List.filterMap_nil, List.forall₂_nil_left_iff]
  | cons n ns ih =>
      intro fs
      rw [List.forall_mem_cons] at hns
      have hrest := ih hns.2
      have hregular := Symbols.problem?_eq_none_iff bits hbits n hns.1
      have hoffends := Symbols.problem?_eq_some_iff bits hbits n
      rw [List.filterMap_cons_toList]
      -- The first node is regular and has no fault, or it has one and is counted.
      cases hproblem : Symbols.problem? ⟨(varNames bits.length).zip bits, []⟩ n with
      | none =>
          rw [List.filter_cons_of_neg (by simpa using hregular.mp hproblem), hrest]
          rfl
      | some f =>
          have hirregular : ¬ n.Regular bits.length := fun h => by
            rw [hregular.mpr h] at hproblem
            simp only [reduceCtorEq] at hproblem
          rw [List.filter_cons_of_pos (by simpa using hirregular), List.forall₂_cons_left_iff,
            Option.toList_some, List.singleton_append]
          constructor
          · rintro ⟨g, gs, hg, hgs, rfl⟩
            -- The node has no other fault than the one that was found.
            rw [← hoffends g, hproblem, Option.some.injEq] at hg
            rw [hg, (hrest gs).mp hgs]
          · rintro rfl
            exact ⟨f, _, (hoffends f).mp hproblem, (hrest _).mpr rfl, rfl⟩

end

end Expr

/-- A check of a source finds the faults of all nodes. -/
theorem check_eq_faults (src : Text) (p : Program) (h : parse src = .ok p) :
    check src = .ok (p.expr.faults ((varNames p.args.length).zip p.args)) := by
  have hargs := length_args_of_parse src p h
  have hincrease := p.expr.faults_increase p.args hargs src (placed_of_parse src p h)
  have hwalk := Symbols.problems_foldl_visit p.expr.visits
    ⟨(varNames p.args.length).zip p.args, []⟩
  -- Nodes further on start further on, so no two faults are at one place.
  have hproblems := hwalk (hincrease.imp fun hlt heq => by
    rw [heq] at hlt
    exact Int.lt_irrefl _ hlt)
  rw [check, h]
  simp only [bind, Except.bind, Program.check, Symbols.ofArgs, Env.ofArgs_eq p.args hargs,
    Except.map]
  rw [hproblems]
  rfl

/-- The problems of a source that can be parsed are the faults of its nodes: one for each
    node that offends, in the order in which the nodes are met, and nothing else. None is
    dropped as a repetition, and each lies further on in the source than the one before. -/
theorem check_reports_every_problem (src : Text) (p : Program) (h : parse src = .ok p) :
    ∃ problems, check src = .ok problems ∧
      (∀ fs, List.Forall₂ (Expr.Offends p.args.length)
        (p.expr.nodes.filter fun n => ¬ n.Regular p.args.length) fs ↔ fs = problems) ∧
      problems.length = p.expr.nodes.countP (fun n => ¬ n.Regular p.args.length) ∧
      problems.Pairwise fun f g => f.span.start < g.span.start := by
  have hargs := length_args_of_parse src p h
  have hsolid := solid_of_parse src p h
  have hoffends := Expr.forall₂_offends_iff p.args hargs p.expr.nodes hsolid.of_mem_nodes
  refine ⟨_, check_eq_faults src p h, hoffends, ?_,
    p.expr.faults_increase p.args hargs src (placed_of_parse src p h)⟩
  rw [List.countP_eq_length_filter]
  exact ((hoffends _).mpr rfl).length_eq.symm

/-- A call of an unknown function. Below it there is a negation of two arguments, and the
    same unbound letter above the negation and in it. -/
def troubled : Text := Text.ofString "1 1 f(B, not(A, B))"

/-- The program of that source. -/
def troubledProgram : Program :=
  let name (s : String) (n : Int) : Ident := ⟨Text.ofString s, ⟨n, n + s.length⟩⟩
  ⟨[true], .call (name "f" 4) [.var (name "B" 6) ⟨6, 7⟩,
    .call (name "not" 9) [.var (name "A" 13) ⟨13, 14⟩, .var (name "B" 16) ⟨16, 17⟩] ⟨9, 18⟩]
    ⟨4, 19⟩⟩

theorem parse_troubled : parse troubled = .ok troubledProgram := by with_unfolding_all rfl

theorem check_reports_every_problem_troubled : parse troubled = .ok troubledProgram ∧
    ∃ problems, check troubled = .ok problems ∧
      (∀ fs, List.Forall₂ (Expr.Offends 1)
        (troubledProgram.expr.nodes.filter fun n => ¬ n.Regular 1) fs ↔ fs = problems) ∧
      problems.length = troubledProgram.expr.nodes.countP (fun n => ¬ n.Regular 1) ∧
      problems.Pairwise fun f g => f.span.start < g.span.start :=
  ⟨parse_troubled, check_reports_every_problem troubled troubledProgram parse_troubled⟩

-- Two nodes at one place, as no source has them, and one problem.
example : (⟨[], .call ⟨Text.ofString "and", ⟨0, 3⟩⟩ [.var ⟨letter 0, ⟨4, 5⟩⟩ ⟨4, 5⟩,
    .var ⟨letter 0, ⟨4, 5⟩⟩ ⟨4, 5⟩] ⟨0, 6⟩⟩ : Program).check =
      .ok [⟨.undefinedVariable (letter 0), ⟨4, 5⟩⟩] := rfl

end BitLogic
