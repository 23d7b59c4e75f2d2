import BitLogic.Proofs.Characters
import BitLogic.Text.Width

/-!
# Columns of Plain Texts

How wide a text is that has only ASCII in it: one column for each byte, controls apart, which
have none.

Width is counted by clusters, and in ASCII there is one cluster per byte, except that a
carriage return and the line feed behind it belong together (`Cluster.first_ascii`). Both are
controls, so it makes no difference to the columns.

## Main definitions

* `Text.takesColumn`: A byte that takes a column.
* `Cluster.Class.isAscii`, `Cluster.State.isAscii`: What occurs in ASCII.

## Theorems

* `Cluster.classOf_ascii`: The classes of ASCII characters.
* `Cluster.step_ascii`: One step in ASCII.
* `Cluster.continuation_cons`, `Cluster.continuation_nil`: Where a cluster goes on, and
  where it does not.
* `Cluster.first_ascii`: The first cluster of an ASCII text.
* `Width.ofCode_ascii`: The columns of an ASCII character.
* `Width.ofText_cons`: The columns of a text, by its first cluster.
* `Width.ofText_ascii`: The columns of an ASCII text.
-/

namespace BitLogic

/-- An ASCII byte that takes a column. Controls take none. -/
def Text.takesColumn (b : UInt8) : Bool := 32 ≤ b && b ≤ 126

namespace Cluster

/-- A class that ASCII characters have. -/
def Class.isAscii : Class → Bool
  | .other | .carriageReturn | .lineFeed | .control => true
  | _ => false

/-- The classes of ASCII characters. -/
theorem classOf_ascii : ∀ c < 128, (classOf c).isAscii = true ∧
    (classOf c = .carriageReturn ↔ c = 13) ∧ (classOf c = .lineFeed ↔ c = 10) := by
  decide +kernel

/-- A state that is left behind by an ASCII character. -/
def State.isAscii : State → Bool
  | .plain | .afterReturn | .afterControl => true
  | _ => false

/-- One step in ASCII. Only a line feed behind a carriage return does not begin a cluster. -/
theorem step_ascii (s : State) (c : Class) (hs : s.isAscii = true) (hc : c.isAscii = true) :
    (step s c).1.isAscii = true ∧ ((step s c).1 = .afterReturn ↔ c = .carriageReturn) ∧
      (step s c).2 = !(decide (s = .afterReturn) && decide (c = .lineFeed)) := by
  cases s <;> simp only [State.isAscii, Bool.false_eq_true] at hs <;> cases c <;>
    simp only [Class.isAscii, Bool.false_eq_true] at hc <;> decide

/-- An ASCII character goes on with a cluster or ends it, by the state it is met in. -/
theorem continuation_cons (s : State) (b : UInt8) (rest : Text) (hb : b.toNat < 128) :
    continuation s (b :: rest) =
      if (step s (classOf b.toNat)).2 then []
      else ⟨b.toNat, 1⟩ :: continuation (step s (classOf b.toNat)).1 rest := by
  have hone : Utf8.decode b rest = ⟨b.toNat, 1⟩ :=
    Utf8.decode_of_sequence [b] rest _ (.one b hb) b rest rfl
  rw [continuation, hone]
  rfl

/-- In ASCII a cluster goes on at a line feed behind a carriage return only. -/
theorem continuation_nil (s : State) (t : Text) (hs : s.isAscii = true)
    (ht : ∀ b ∈ t, b.toNat < 128) (h : s = .afterReturn → t.head? ≠ some Text.lineFeed) :
    continuation s t = [] := by
  cases t with
  | nil => rw [continuation]
  | cons b rest =>
      have hb := ht b List.mem_cons_self
      have hclass := classOf_ascii b.toNat hb
      have hends : (step s (classOf b.toNat)).2 = true := by
        rw [(step_ascii s _ hs hclass.1).2.2]
        by_cases hreturn : s = .afterReturn
        · -- Then this is no line feed.
          have hfeed : ¬ classOf b.toNat = .lineFeed := by
            rw [hclass.2.2]
            intro heq
            exact h hreturn (congrArg some (UInt8.toNat_inj.mp heq))
          rw [decide_eq_false hfeed, Bool.and_false]
          rfl
        · rw [decide_eq_false hreturn]
          rfl
      rw [continuation_cons s b rest hb, if_pos hends]

/-- The first cluster of an ASCII text is its first byte, and a line feed behind a carriage
    return. -/
theorem first_ascii (b : UInt8) (rest : Text) (h : ∀ c ∈ b :: rest, c.toNat < 128) :
    first b rest = [⟨b.toNat, 1⟩] ∨
      ∃ rest', b = Text.carriageReturn ∧ rest = Text.lineFeed :: rest' ∧
        first b rest = [⟨13, 1⟩, ⟨10, 1⟩] := by
  rw [List.forall_mem_cons] at h
  have hone : Utf8.decode b rest = ⟨b.toNat, 1⟩ :=
    Utf8.decode_of_sequence [b] rest _ (.one b h.1) b rest rfl
  have hclass := classOf_ascii b.toNat h.1
  have hstep := step_ascii .plain (classOf b.toNat) rfl hclass.1
  rw [first, hone]
  simp only [Nat.sub_self, List.drop_zero]
  by_cases hpair : b = Text.carriageReturn ∧ rest.head? = some Text.lineFeed
  · rcases hpair with ⟨rfl, hfeed⟩
    rcases List.head?_eq_some_iff.mp hfeed with ⟨rest', rfl⟩
    rw [List.forall_mem_cons] at h
    refine Or.inr ⟨rest', rfl, rfl, ?_⟩
    -- Behind the line feed nothing goes on.
    have hend := continuation_nil .afterControl rest' rfl h.2.2 fun heq => by
      simp only [reduceCtorEq] at heq
    rw [continuation_cons _ _ _ h.2.1]
    exact congrArg (fun rs => [⟨13, 1⟩, ⟨10, 1⟩] ++ rs) hend
  · rw [continuation_nil _ rest hstep.1 h.2]
    · exact Or.inl rfl
    · intro hreturn hfeed
      rw [hstep.2.1, hclass.2.1] at hreturn
      exact hpair ⟨UInt8.toNat_inj.mp hreturn, hfeed⟩

end Cluster

namespace Width

theorem ofCode_ascii (b : UInt8) (h : b.toNat < 128) :
    ofCode b.toNat = if Text.takesColumn b then 1 else 0 := by
  -- There are few enough of them to look at each.
  have hall : ∀ c < 128, ofCode c = if 32 ≤ c ∧ c ≤ 126 then 1 else 0 := by decide +kernel
  rw [hall b.toNat h]
  exact if_congr (UInt8.between_iff b 32 126).symm rfl rfl

theorem ofText_cons (b : UInt8) (rest : Text) : ofText (b :: rest) =
    ofCluster (Cluster.first b rest) +
      ofText (rest.drop (Cluster.size (Cluster.first b rest) - 1)) := by
  rw [ofText, Cluster.split]
  rfl

/-- An ASCII text has one column for each byte that is no control, by induction on its
    clusters. -/
theorem ofText_ascii (t : Text) (h : ∀ b ∈ t, b.toNat < 128) :
    ofText t = t.countP Text.takesColumn := by
  induction hn : t.length using Nat.strongRecOn generalizing t with
  | _ n ih =>
      cases t with
      | nil =>
          rw [ofText, Cluster.split]
          rfl
      | cons b rest =>
          rw [List.length_cons] at hn
          rw [ofText_cons]
          rcases Cluster.first_ascii b rest h with hfirst | ⟨rest', rfl, rfl, hfirst⟩
          · -- One byte is a cluster by itself, and its columns are those of its code.
            rw [List.forall_mem_cons] at h
            have hrest := ih rest.length (by omega) rest h.2 rfl
            have hwidth : ofCluster [⟨b.toNat, 1⟩] = ofCode b.toNat := by
              rw [ofCode_ascii b h.1, ofCluster]
              simp only [List.map_cons, List.map_nil, ofCode_ascii b h.1]
              cases Text.takesColumn b <;> rfl
            rw [hfirst, hwidth, ofCode_ascii b h.1, List.countP_cons, Nat.add_comm]
            exact congrArg (· + _) hrest
          · -- A carriage return and the line feed behind it have no columns, in one cluster
            -- or in two.
            rw [List.forall_mem_cons, List.forall_mem_cons] at h
            rw [List.length_cons] at hn
            have hrest := ih rest'.length (by omega) rest' h.2.2 rfl
            rw [hfirst, List.countP_cons, List.countP_cons]
            exact (Nat.zero_add _).trans hrest

end Width

end BitLogic
