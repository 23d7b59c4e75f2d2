import BitLogic.Expr

/-!
# Walks and Paths

Where a walk over an expression goes, in terms of paths. A path is a list of argument numbers
and leads from the root of an expression to one of its nodes, or nowhere. Paths are compared
like words, so a node comes before the nodes below it, and everything below an argument comes
before the next argument.

A walk gets to a node if it enters all nodes on the way there (`Leads`). It visits the nodes it
gets to in the order of their paths, each of them once, and the depth of a visit is the length
of the path (`walk_inPathOrder`). A node has no other visits than its own and those of its
arguments, so this is an induction on the expression, in which the paths of an argument are
those of its own with the number of the argument in front. Arguments are numbered from left to
right, and neither does putting the same number in front of two paths change their order nor
can the paths behind two numbers get mixed up.

## Main definitions

* `Expr.nodeAt?`: The node that a path leads to.
* `Expr.Leads`: A path leads to a node, and all nodes on the way are entered.
* `Expr.LeadsAmong`: A path leads into one of several neighbours.
* `Expr.visitAt`: The visit to a node at the end of a path.
* `Expr.InPathOrder`: Visits are those to the nodes that paths lead to, in their order.

## Theorems

* `Expr.induction_children`: Induction with the hypothesis for every argument, in one
  case.
* `Expr.walk_eq_cons`: The visits to a node and to what is below it.
* `Expr.leadsAmong_cons_iff`: A path into the first of several neighbours, or into a
  later one.
* `Expr.leads_iff`: A path to a node itself, or into one of its arguments.
* `Expr.walkAll_inPathOrder`: The visits to neighbours.
* `Expr.walk_inPathOrder`: The visits of a walk, in the order of the paths.
* `Expr.leads_always_iff`: What a walk gets to that enters every node.
-/

namespace BitLogic

namespace Expr

/-- Induction with the hypothesis for every argument. A variable has no arguments, and neither
    has a blank node. -/
@[elab_as_elim]
theorem induction_children {P : Expr → Prop}
    (node : ∀ e, (∀ a ∈ e.children, P a) → P e) (e : Expr) : P e := by
  induction e using induction_args with
  | var id s => exact node _ (List.forall_mem_nil _)
  | blank s => exact node _ (List.forall_mem_nil _)
  | call id args s ih => exact node _ ih

/-- The visits to a node and to what is below it. -/
theorem walk_eq_cons (enter : Expr → Nat → Bool) (d : Nat) (e : Expr) : walk enter d e =
    ⟨e, d⟩ :: if enter e d then walkAll enter (d + 1) e.children else [] := by
  cases e with
  | var id s => simp only [walk, children, walkAll, ite_self]
  | blank s => simp only [walk, children, walkAll, ite_self]
  | call id args s => rw [walk, children]

/-- The node that a path leads to. -/
def nodeAt? (e : Expr) : List Nat → Option Expr
  | [] => some e
  | i :: path => e.children[i]?.bind fun a => a.nodeAt? path

/-- The path leads from one node to another, and all nodes before that one are entered. -/
inductive Leads (enter : Expr → Nat → Bool) : Nat → Expr → List Nat → Expr → Prop
  | here (d : Nat) (e : Expr) : Leads enter d e [] e
  | step (d : Nat) (e : Expr) (i : Nat) (a : Expr) (path : List Nat) (last : Expr)
      (henter : enter e d = true) (hchild : e.children[i]? = some a)
      (h : Leads enter (d + 1) a path last) : Leads enter d e (i :: path) last

/-- The path leads into one of several neighbours, the first of which has the number `k`. -/
def LeadsAmong (enter : Expr → Nat → Bool) (d k : Nat) (es : List Expr) (path : List Nat)
    (last : Expr) : Prop :=
  ∃ i a rest, path = (k + i) :: rest ∧ es[i]? = some a ∧ Leads enter d a rest last

/-- A path into neighbours leads into the first of them, by its number, or into one of the
    others. -/
theorem leadsAmong_cons_iff (enter : Expr → Nat → Bool) (d k : Nat) (e : Expr) (es : List Expr)
    (path : List Nat) (last : Expr) : LeadsAmong enter d k (e :: es) path last ↔
      (∃ rest, path = k :: rest ∧ Leads enter d e rest last) ∨
        LeadsAmong enter d (k + 1) es path last := by
  constructor
  · rintro ⟨i, a, rest, hpath, ha, h⟩
    cases i with
    | zero =>
        rw [List.getElem?_cons_zero, Option.some.injEq] at ha
        exact Or.inl ⟨rest, hpath, ha ▸ h⟩
    | succ i =>
        rw [List.getElem?_cons_succ] at ha
        refine Or.inr ⟨i, a, rest, ?_, ha, h⟩
        rw [hpath, Nat.add_assoc, Nat.add_comm 1 i]
  · rintro (⟨rest, hpath, h⟩ | ⟨i, a, rest, hpath, ha, h⟩)
    · exact ⟨0, e, rest, hpath, rfl, h⟩
    · refine ⟨i + 1, a, rest, ?_, ha, h⟩
      rw [hpath, Nat.add_assoc, Nat.add_comm 1 i]

/-- A path leads to the node it starts from, being empty, or into one of the arguments. -/
theorem leads_iff (enter : Expr → Nat → Bool) (d : Nat) (e : Expr) (path : List Nat)
    (last : Expr) : Leads enter d e path last ↔
      (path = [] ∧ last = e) ∨
        (enter e d = true ∧ LeadsAmong enter (d + 1) 0 e.children path last) := by
  constructor
  · intro h
    cases h with
    | here => exact Or.inl ⟨rfl, rfl⟩
    | step _ _ i a rest _ henter hchild h =>
        exact Or.inr ⟨henter, i, a, rest, by rw [Nat.zero_add], hchild, h⟩
  · rintro (⟨rfl, rfl⟩ | ⟨henter, i, a, rest, rfl, hchild, h⟩)
    · exact .here d last
    · rw [Nat.zero_add]
      exact .step d e i a rest last henter hchild h

/-- The visit to a node that a path leads to from depth `d`. -/
def visitAt (d : Nat) (q : List Nat × Expr) : Visit := ⟨q.2, d + q.1.length⟩

/-- The visits are those to the nodes that paths lead to, in the order of the paths. -/
structure InPathOrder (d : Nat) (gets : List Nat → Expr → Prop) (vs : List Visit)
    (qs : List (List Nat × Expr)) : Prop where
  visits : vs = qs.map (visitAt d)
  complete : ∀ q, q ∈ qs ↔ gets q.1 q.2
  ordered : qs.Pairwise fun q r => q.1 < r.1

/-- The visits to neighbours, given those to each of them. -/
theorem walkAll_inPathOrder (enter : Expr → Nat → Bool) (d : Nat) (es : List Expr)
    (h : ∀ e ∈ es, ∃ qs, InPathOrder (d + 1) (Leads enter (d + 1) e) (walk enter (d + 1) e) qs) :
    ∀ k, ∃ qs, InPathOrder d (LeadsAmong enter (d + 1) k es) (walkAll enter (d + 1) es) qs := by
  -- Along the neighbours, whichever number the first one has.
  induction es with
  | nil =>
      intro k
      refine ⟨[], rfl, fun q => ⟨fun hq => absurd hq List.not_mem_nil, ?_⟩, List.Pairwise.nil⟩
      rintro ⟨i, a, rest, -, ha, -⟩
      simp only [List.getElem?_nil, reduceCtorEq] at ha
  | cons e es ih =>
      intro k
      rw [List.forall_mem_cons] at h
      rcases h.1 with ⟨qs, hqs⟩
      rcases ih h.2 (k + 1) with ⟨rs, hrs⟩
      -- The paths into the first neighbour are its own, with its number in front.
      refine ⟨qs.map (fun q => (k :: q.1, q.2)) ++ rs, ?_, ?_, ?_⟩
      · -- A visit is as deep as its path says, so one more for the number in front.
        have hshift : qs.map (visitAt (d + 1)) =
            (qs.map fun q => (k :: q.1, q.2)).map (visitAt d) := by
          rw [List.map_map]
          refine List.map_congr_left fun q _ => ?_
          rw [Function.comp_apply, visitAt, visitAt, List.length_cons, Nat.add_assoc,
            Nat.add_comm 1]
        rw [walkAll, hqs.visits, hrs.visits, List.map_append, hshift]
      · intro q
        rw [List.mem_append, hrs.complete, leadsAmong_cons_iff, List.mem_map]
        -- A path into the first neighbour is one of its own, once the number is taken off.
        refine or_congr_left ⟨?_, ?_⟩
        · rintro ⟨r, hr, rfl⟩
          exact ⟨r.1, rfl, (hqs.complete r).mp hr⟩
        · rintro ⟨rest, hpath, hrest⟩
          exact ⟨(rest, q.2), (hqs.complete _).mpr hrest, Prod.ext hpath.symm rfl⟩
      · -- Paths into the first neighbour begin with a smaller number than all others.
        rw [List.pairwise_append, List.pairwise_map]
        refine ⟨hqs.ordered.imp fun hlt => List.cons_lt_cons_self.mpr hlt, hrs.ordered, ?_⟩
        intro q hq r hr
        rcases List.mem_map.mp hq with ⟨q', -, rfl⟩
        rcases (hrs.complete r).mp hr with ⟨i, a, rest, hpath, -, -⟩
        rw [hpath, List.cons_lt_cons_iff]
        exact Or.inl (by omega)

/-- A walk visits the nodes it gets to, in the order of their paths. -/
theorem walk_inPathOrder (enter : Expr → Nat → Bool) (e : Expr) :
    ∀ d, ∃ qs, InPathOrder d (Leads enter d e) (walk enter d e) qs := by
  induction e using induction_children with
  | node e ih =>
      intro d
      rcases walkAll_inPathOrder enter d e.children (fun a ha => ih a ha (d + 1)) 0 with ⟨qs, hqs⟩
      -- The node itself comes before everything below it, since its path is empty.
      have hpath : ∀ q ∈ qs, [] < q.1 := by
        intro q hq
        rcases (hqs.complete q).mp hq with ⟨i, a, rest, hpath, -, -⟩
        rw [hpath]
        exact List.nil_lt_cons _ _
      rw [walk_eq_cons]
      by_cases henter : enter e d = true
      · refine ⟨([], e) :: qs, ?_, ?_, List.pairwise_cons.mpr ⟨hpath, hqs.ordered⟩⟩
        · rw [if_pos henter, hqs.visits]
          rfl
        · intro q
          rw [List.mem_cons, hqs.complete, leads_iff, and_iff_right henter, Prod.ext_iff]
      · refine ⟨[([], e)], ?_, ?_, List.pairwise_singleton _ _⟩
        · rw [if_neg henter]
          rfl
        · intro q
          rw [List.mem_singleton, leads_iff, Prod.ext_iff, or_iff_left fun h => henter h.1]

/-- A walk that enters every node gets to all of them. -/
theorem leads_always_iff (path : List Nat) : ∀ (d : Nat) (e last : Expr),
    Leads (fun _ _ => true) d e path last ↔ e.nodeAt? path = some last := by
  -- On the path, from any node and at any depth: each number in it is one argument further down.
  induction path with
  | nil =>
      intro d e last
      rw [nodeAt?, Option.some.injEq]
      exact ⟨fun h => by cases h; rfl, fun h => h ▸ .here d e⟩
  | cons i path ih =>
      intro d e last
      rw [nodeAt?, Option.bind_eq_some_iff]
      constructor
      · intro h
        cases h with
        | step _ _ _ a _ _ _ hchild h => exact ⟨a, hchild, (ih (d + 1) a last).mp h⟩
      · rintro ⟨a, hchild, h⟩
        exact .step d e i a path last rfl hchild ((ih (d + 1) a last).mpr h)

end Expr

end BitLogic
