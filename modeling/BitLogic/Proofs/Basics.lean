import Mathlib.Data.List.Basic
import Mathlib.Data.List.TakeWhile

/-!
# Runs, First Entries and Results

Facts about lists, bytes and results that know nothing of programs.

Most are about runs. Reading a text means again and again taking the longest run of a
class off its front, so what has to be known is where such a run ends: it ends where
something else stands (`takeWhile_run`), what stands behind that does not matter
(`takeWhile_append_cons`), and a text that is cut behind the run still has it
(`takeWhile_of_length_le`).

The others are about the first entry of a list that passes a test, about tables of
entries that are looked up by name, and about computations that may fail.

## Theorems

* `List.drop_length_takeWhile`: What is left behind the longest run.
* `List.takeWhile_run`: A run ends where its class does.
* `List.run_inj`: A run with something else behind it can be told from any other.
* `List.takeWhile_append_cons`: What stands behind the end of a run does not matter.
* `List.takeWhile_of_length_le`: A list that is cut behind a run still has it.
* `List.notMem_takeWhile_ne`: An entry is not before its first place.
* `List.length_takeWhile_ne`: The number of entries before that place.
* `List.find?_eq_head?_iff`: When the first entry that passes is the first one.
* `List.filterMap_cons_toList`: The results of the first entry stand first.
* `List.foldl_max_le_iff`: The greatest of some numbers, compared with another.
* `List.lookup_cons_of_ne`, `List.lookup_eraseP`: An entry of a table does not depend on
  those of other names.
* `Except.bind_eq_ok_iff`: When two steps give a result.
* `Except.map_eq_error_iff`: A failure is not altered by what is done to a result.
* `UInt8.between_iff`: The bounds of a class of bytes as bounds on numbers.
* `Bool.toNat_decide_eq_one`: A number up to one as a truth value and back.
-/

namespace List

section Runs

variable {α : Type} (p : α → Bool)

theorem drop_length_takeWhile (l : List α) : l.drop (l.takeWhile p).length = l.dropWhile p := by
  have hsplit := takeWhile_append_dropWhile (p := p) (l := l)
  calc l.drop (l.takeWhile p).length
      = (l.takeWhile p ++ l.dropWhile p).drop (l.takeWhile p).length := by rw [hsplit]
    _ = l.dropWhile p := drop_left

/-- A run of a class ends where its class does. -/
theorem takeWhile_run (s rest : List α) (hs : s.all p = true)
    (hrest : ∀ a, rest.head? = some a → p a = false) : (s ++ rest).takeWhile p = s := by
  rw [takeWhile_append_of_pos (all_eq_true.mp hs)]
  cases rest with
  | nil => exact append_nil s
  | cons a rest => rw [takeWhile_cons_of_neg (by rw [hrest a rfl]; decide), append_nil]

/-- A run of a class, with something else behind it, can be told from any other. -/
theorem run_inj (s t rest rest' : List α) (hs : s.all p = true) (ht : t.all p = true)
    (hrest : ∀ a, rest.head? = some a → p a = false)
    (hrest' : ∀ a, rest'.head? = some a → p a = false) (h : s ++ rest = t ++ rest') :
    s = t ∧ rest = rest' := by
  -- Either run is the longest one of the same list.
  have hst : s = t := by
    rw [← takeWhile_run p s rest hs hrest, h, takeWhile_run p t rest' ht hrest']
  rw [hst, append_cancel_left_eq] at h
  exact ⟨hst, h⟩

/-- What stands behind an entry that is not of the class is no part of the run, and neither
    is the entry. -/
theorem takeWhile_append_cons (s rest : List α) (a : α) (ha : p a = false) :
    (s ++ a :: rest).takeWhile p = s.takeWhile p := by
  rw [takeWhile_append, takeWhile_cons, ha]
  split
  · next hlen => rw [(List.takeWhile_prefix p).eq_of_length hlen]; exact append_nil s
  · rfl

/-- A list that is cut behind a run of it, or at its end, still has the run. -/
theorem takeWhile_of_length_le (s rest : List α)
    (h : ((s ++ rest).takeWhile p).length ≤ s.length) :
    s.takeWhile p = (s ++ rest).takeWhile p := by
  rw [takeWhile_append] at h ⊢
  by_cases hall : (s.takeWhile p).length = s.length
  · -- The run goes up to the end of the first part, so nothing behind it belongs to the run.
    rw [if_pos hall, length_append] at h
    have hnil : rest.takeWhile p = [] := length_eq_zero_iff.mp (by omega)
    rw [if_pos hall, hnil, append_nil]
    exact (List.takeWhile_prefix p).eq_of_length hall
  · rw [if_neg hall]

end Runs

section FirstPlace

variable {α : Type} [DecidableEq α]

/-- An entry is not among those before its first place. -/
theorem notMem_takeWhile_ne (a : α) (l : List α) : a ∉ l.takeWhile (· ≠ a) := by
  intro hmem
  have hne := mem_takeWhile_imp hmem
  exact absurd rfl (of_decide_eq_true hne)

/-- The number of entries before the first place of one. -/
theorem length_takeWhile_ne (a : α) (l : List α) : (l.takeWhile (· ≠ a)).length = l.idxOf a := by
  induction l with
  | nil => rfl
  | cons c l ih =>
      by_cases hc : c = a
      · rw [hc, idxOf_cons_self, takeWhile_cons_of_neg (by simp)]
        rfl
      · rw [idxOf_cons_ne _ hc, takeWhile_cons_of_pos (by simpa using hc), length_cons, ih]

end FirstPlace

/-- The first entry that passes a test is the first entry if and only if that one
    passes. -/
theorem find?_eq_head?_iff {α : Type} (q : α → Bool) (l : List α) :
    l.find? q = l.head? ↔ ∀ a, l.head? = some a → q a = true := by
  cases l with
  | nil => simp
  | cons a l =>
      by_cases ha : q a = true
      · simp [ha]
      · -- Whatever is found passes, and the first entry does not.
        rw [find?_cons_of_neg ha, head?_cons]
        exact ⟨fun h => absurd (find?_some h) ha, fun h => absurd (h a rfl) ha⟩

/-- Where a function has results only for some entries, the first entry gives its own. -/
theorem filterMap_cons_toList {α β : Type} (g : α → Option β) (a : α) (l : List α) :
    (a :: l).filterMap g = (g a).toList ++ l.filterMap g := by
  cases h : g a with
  | none => exact filterMap_cons_none h
  | some b => exact filterMap_cons_some h

/-- The greatest of some numbers and one more is bounded as all of them are. -/
theorem foldl_max_le_iff (ns : List Nat) (a k : Nat) :
    ns.foldl max a ≤ k ↔ a ≤ k ∧ ∀ n ∈ ns, n ≤ k := by
  induction ns generalizing a with
  | nil => exact ⟨fun h => ⟨h, forall_mem_nil _⟩, fun h => h.1⟩
  | cons n ns ih => rw [foldl_cons, ih, Nat.max_le, forall_mem_cons, and_assoc]

section Tables

variable {α β : Type} [BEq α] [LawfulBEq α]

theorem lookup_cons_of_ne (l : List (α × β)) (a k : α) (b : β) (h : a ≠ k) :
    lookup a ((k, b) :: l) = l.lookup a := by
  rw [lookup_cons, beq_eq_false_iff_ne.mpr h]

/-- Erasing the entry of one name leaves what is found by another. -/
theorem lookup_eraseP (l : List (α × β)) (a k : α) (h : a ≠ k) :
    lookup a (l.eraseP (·.1 == k)) = l.lookup a := by
  induction l with
  | nil => rfl
  | cons entry l ih =>
      rcases entry with ⟨m, b⟩
      by_cases hm : m = k
      · rw [eraseP_cons_of_pos (by rw [hm]; exact beq_self_eq_true k), hm,
          lookup_cons_of_ne l a k b h]
      · rw [eraseP_cons_of_neg (by simpa using hm), lookup_cons, lookup_cons, ih]

end Tables

end List

/-- Two steps give a result if the first has a value and the second gives it from there. -/
theorem Except.bind_eq_ok_iff {ε α β : Type} (x : Except ε α) (f : α → Except ε β) (b : β) :
    x >>= f = .ok b ↔ ∃ a, x = .ok a ∧ f a = .ok b := by
  cases x with
  | error _ => simp only [bind, Except.bind, reduceCtorEq, false_and, exists_false]
  | ok _ => simp only [bind, Except.bind, Except.ok.injEq, exists_eq_left']

theorem Except.map_eq_error_iff {ε α β : Type} (g : α → β) (x : Except ε α) (e : ε) :
    x.map g = .error e ↔ x = .error e := by
  cases x with
  | error _ => simp only [Except.map, Except.error.injEq]
  | ok _ => simp only [Except.map, reduceCtorEq]

/-- The bounds of a class of bytes as bounds on numbers. -/
theorem UInt8.between_iff (b lo hi : UInt8) : (decide (lo ≤ b) && decide (b ≤ hi)) = true ↔
    lo.toNat ≤ b.toNat ∧ b.toNat ≤ hi.toNat := by
  rw [Bool.and_eq_true, decide_eq_true_eq, decide_eq_true_eq, UInt8.le_iff_toNat_le,
    UInt8.le_iff_toNat_le]

/-- A number up to one is kept by the truth value that says whether it is one. -/
theorem Bool.toNat_decide_eq_one (n : Nat) (h : n ≤ 1) : (decide (n = 1)).toNat = n := by
  rcases Nat.le_one_iff_eq_zero_or_eq_one.mp h with rfl | rfl
  · rfl
  · rfl
