import BitLogic.Proofs.Paths
import BitLogic.Proofs.Written
import Mathlib.Logic.Equiv.List

/-!
# Walks That Leave Nodes Out

Which nodes a walk visits if it is told not to enter some of them.

A walk gets to a node by entering the nodes on the way, and `Leads` follows the way from the
root down, one argument at a time. Seen from the node, the way consists of the nodes above
it, which are those that the proper beginnings of its path lead to. So a node is visited if
and only if every node above it is entered (`leads_iff_above`). Whether the node itself is
entered makes no difference to that, and neither does any node beside the way.

A walk asks about a node and its depth, and two nodes of an expression may look the same. It
can still be told to leave out any nodes there are, because it never looks at spans:
`marked` writes the path of every node into its span, which changes nothing else, and on a
marked expression the question about a node is a question about its path
(`exists_enter_of_paths`).

## Main definitions

* `Expr.Above`: A path leads to a node above the one that another leads to.
* `Expr.mark`, `Expr.markedPath?`: Paths as spans.
* `Expr.marked`: The expression with the path of every node in its span.

## Theorems

* `Expr.not_above_nil`, `Expr.above_cons_iff`: What is above a node.
* `Expr.leads_iff_above`: A walk gets to a node if it enters the nodes above it.
* `Expr.markedPath?_mark`: The path of a mark.
* `Expr.span_marked`, `Expr.children_marked`: The parts of a marked expression.
* `Expr.bareAll_markedAll`, `Expr.bare_marked`: Marks are in spans and nowhere else.
* `Expr.getElem?_markedAll`: The arguments of a marked expression.
* `Expr.nodeAt?_marked`: The nodes of a marked expression.
* `Expr.exists_enter_of_paths`: A walk can be told to enter any nodes, by their paths.
* `Expr.walk_visits_entered`: The visits of a walk.
-/

namespace BitLogic

namespace Expr

/-- The first path leads to a node above the one that the second leads to: it is the beginning
    of it and not the whole. -/
def Above (above path : List Nat) : Prop := above <+: path ∧ above ≠ path

@[simp]
theorem not_above_nil (above : List Nat) : ¬ Above above [] :=
  fun h => h.2 (List.prefix_nil.mp h.1)

/-- The root is above every other node. All others that are above a node are below the same
    argument of the root. -/
theorem above_cons_iff (above : List Nat) (i : Nat) (path : List Nat) :
    Above above (i :: path) ↔ above = [] ∨ ∃ rest, above = i :: rest ∧ Above rest path := by
  unfold Above
  rw [List.prefix_cons_iff]
  constructor
  · rintro ⟨rfl | ⟨rest, rfl, hrest⟩, hne⟩
    · exact Or.inl rfl
    · exact Or.inr ⟨rest, rfl, hrest, fun h => hne (congrArg (List.cons i) h)⟩
  · rintro (rfl | ⟨rest, rfl, hrest, hne⟩)
    · exact ⟨Or.inl rfl, (List.cons_ne_nil i path).symm⟩
    · exact ⟨Or.inr ⟨rest, rfl, hrest⟩, fun h => hne (List.cons.inj h).2⟩

/-- A walk gets to a node if and only if it enters all nodes above it, by induction on the
    path. -/
theorem leads_iff_above (enter : Expr → Nat → Bool) (path : List Nat) :
    ∀ (d : Nat) (e last : Expr), Leads enter d e path last ↔
      e.nodeAt? path = some last ∧ ∀ above, Above above path →
        ∃ a, e.nodeAt? above = some a ∧ enter a (d + above.length) = true := by
  induction path with
  | nil =>
      intro d e last
      rw [nodeAt?, Option.some.injEq]
      constructor
      · intro h
        cases h
        simp
      · rintro ⟨rfl, -⟩
        exact .here d e
  | cons i path ih =>
      intro d e last
      constructor
      · intro h
        cases h with
        | step _ _ _ a _ _ henter hchild h =>
            -- What is above the node is the root, which has just been entered, or below the
            -- argument.
            rcases (ih (d + 1) a last).mp h with ⟨hlast, habove⟩
            refine ⟨by rw [nodeAt?, hchild, Option.bind_some, hlast], fun above hup => ?_⟩
            rcases (above_cons_iff above i path).mp hup with rfl | ⟨rest, rfl, hrest⟩
            · exact ⟨e, rfl, henter⟩
            · rcases habove rest hrest with ⟨b, hb, hentered⟩
              refine ⟨b, by rw [nodeAt?, hchild, Option.bind_some, hb], ?_⟩
              rw [List.length_cons, Nat.add_comm rest.length, ← Nat.add_assoc]
              exact hentered
      · rintro ⟨hlast, habove⟩
        rcases Option.bind_eq_some_iff.mp hlast with ⟨a, hchild, hlast⟩
        -- The root is entered because it is above the node.
        rcases habove [] ((above_cons_iff [] i path).mpr (Or.inl rfl)) with ⟨r, hr, henter⟩
        rw [nodeAt?, Option.some.injEq] at hr
        rw [← hr] at henter
        refine .step d e i a path last henter hchild ((ih (d + 1) a last).mpr ⟨hlast, ?_⟩)
        intro rest hrest
        rcases habove (i :: rest) ((above_cons_iff _ i path).mpr (Or.inr ⟨rest, rfl, hrest⟩)) with
          ⟨b, hb, hentered⟩
        rw [nodeAt?, hchild, Option.bind_some] at hb
        refine ⟨b, hb, ?_⟩
        rw [List.length_cons, Nat.add_comm rest.length, ← Nat.add_assoc] at hentered
        exact hentered

/-! ## Marks -/

/-- A span that a path can be read off. -/
def mark (path : List Nat) : Span := ⟨Encodable.encode path, 0⟩

/-- The path that a span is the mark of. -/
def markedPath? (s : Span) : Option (List Nat) := Encodable.decode s.start.toNat

@[simp]
theorem markedPath?_mark (path : List Nat) : markedPath? (mark path) = some path := by
  rw [markedPath?, mark, Int.toNat_natCast, Encodable.encodek]

mutual

/-- The expression with the path of every node in its span, the root being at the path
    given. -/
def marked (path : List Nat) : Expr → Expr
  | .var id _ => .var id (mark path)
  | .call id args _ => .call id (markedAll path 0 args) (mark path)
  | .blank _ => .blank (mark path)

/-- Neighbours with the paths of their nodes in the spans, the first of them being the
    argument number `k`. -/
def markedAll (path : List Nat) (k : Nat) : List Expr → List Expr
  | [] => []
  | e :: es => e.marked (path ++ [k]) :: markedAll path (k + 1) es

end

@[simp]
theorem span_marked (path : List Nat) (e : Expr) : (e.marked path).span = mark path := by
  cases e <;> rfl

theorem bareAll_markedAll (es : List Expr) (h : ∀ e ∈ es, ∀ path, (e.marked path).bare = e.bare)
    (path : List Nat) : ∀ k, bareAll (markedAll path k es) = bareAll es := by
  induction es with
  | nil => intro k; rfl
  | cons e es ih =>
      intro k
      rw [List.forall_mem_cons] at h
      rw [markedAll, bareAll, bareAll, h.1, ih h.2]

/-- Marks are in spans and nowhere else. -/
@[simp]
theorem bare_marked (e : Expr) : ∀ path, (e.marked path).bare = e.bare := by
  induction e using induction_args with
  | var id s => intro path; rfl
  | blank s => intro path; rfl
  | call id args s ih =>
      intro path
      rw [marked, bare, bare, bareAll_markedAll args ih]

/-- An argument is marked with its number behind the path of the call. -/
theorem getElem?_markedAll (path : List Nat) (es : List Expr) : ∀ k i : Nat,
    (markedAll path k es)[i]? = es[i]?.map (marked (path ++ [k + i])) := by
  induction es with
  | nil => intro k i; rfl
  | cons e es ih =>
      intro k i
      cases i with
      | zero => rfl
      | succ i =>
          rw [markedAll, List.getElem?_cons_succ, List.getElem?_cons_succ, ih, Nat.add_assoc,
            Nat.add_comm 1 i]

@[simp]
theorem children_marked (path : List Nat) (e : Expr) :
    (e.marked path).children = markedAll path 0 e.children := by
  cases e <;> rfl

/-- The node of a marked expression that a path leads to has that path for its mark. -/
theorem nodeAt?_marked (path : List Nat) : ∀ (front : List Nat) (e : Expr),
    (e.marked front).nodeAt? path = (e.nodeAt? path).map (marked (front ++ path)) := by
  induction path with
  | nil => intro front e; rw [nodeAt?, nodeAt?, Option.map_some, List.append_nil]
  | cons i path ih =>
      intro front e
      rw [nodeAt?, nodeAt?, children_marked, getElem?_markedAll, Nat.zero_add]
      cases e.children[i]? with
      | none => rfl
      | some a =>
          rw [Option.map_some, Option.bind_some, Option.bind_some, ih, List.append_assoc,
            List.singleton_append]

/-- Whatever nodes are to be entered, there are spans for the expression by which a walk can
    tell these nodes from the others. -/
theorem exists_enter_of_paths (e : Expr) (opens : List Nat → Bool) :
    ∃ (e' : Expr) (enter : Expr → Nat → Bool), e'.bare = e.bare ∧
      ∀ path node, e'.nodeAt? path = some node → enter node path.length = opens path := by
  -- A walk over the marked expression reads the path of a node off its span.
  refine ⟨e.marked [], fun node _ => (markedPath? node.span).any opens, by simp, ?_⟩
  intro path node hnode
  rw [nodeAt?_marked, List.nil_append] at hnode
  rcases Option.map_eq_some_iff.mp hnode with ⟨m, -, rfl⟩
  simp

/-- The visits of a walk. For any expression and any choice of nodes to enter, by what they are
    and how deep they are, there is a visit to each node such that all nodes above it are
    entered, and there are no others. The depth of a visit is the length of the path to its
    node, and visits come in the order of the paths, of which none is repeated: a node before
    those below it, and all those below an argument before the next argument. The choice may
    be by paths, if the spans are suitable. -/
theorem walk_visits_entered (e : Expr) :
    (∀ enter : Expr → Nat → Bool, ∃ qs : List (List Nat × Expr),
      e.walk enter 0 = qs.map (fun q => ⟨q.2, q.1.length⟩) ∧
      (∀ q, q ∈ qs ↔ e.nodeAt? q.1 = some q.2 ∧ ∀ above, Above above q.1 →
        ∃ a, e.nodeAt? above = some a ∧ enter a above.length = true) ∧
      qs.Pairwise fun q r => q.1 < r.1) ∧
    ∀ opens : List Nat → Bool, ∃ (e' : Expr) (enter : Expr → Nat → Bool), e'.bare = e.bare ∧
      ∀ path node, e'.nodeAt? path = some node → enter node path.length = opens path := by
  refine ⟨fun enter => ?_, e.exists_enter_of_paths⟩
  rcases walk_inPathOrder enter e 0 with ⟨qs, hqs⟩
  refine ⟨qs, ?_, fun q => ?_, hqs.ordered⟩
  · rw [hqs.visits]
    refine List.map_congr_left fun q _ => ?_
    rw [visitAt, Nat.zero_add]
  · rw [hqs.complete, leads_iff_above]
    simp only [Nat.zero_add]

end Expr

end BitLogic
