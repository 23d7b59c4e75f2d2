import BitLogic.Proofs.Digits

/-!
# Texts and Their Lines

A text is cut into lines at its line feeds, and put together from lines that end with one.

The two go together as long as no line has a line feed in it, so that has to be known of
everything that is printed within a line (`Unbroken`). A text has one line more than it has
line feeds, and cutting it loses nothing: its lines with a line feed between neighbours are
the text again (`joinWith_lines`).

## Main definitions

* `Text.ofLines`: A text of whole lines.
* `Text.Unbroken`: A text with no line feed in it.

## Theorems

* `Text.unbroken_nil`, `Text.unbroken_cons`, `Text.unbroken_append`: Unbroken texts,
  byte by byte and part by part.
* `Text.lines_cons`, `Text.lines_ne_nil`, `Text.exists_lines_eq`: The first line of a
  text.
* `Text.lines_break`: A line feed divides the lines before it from those behind it.
* `Text.lines_of_unbroken`, `Text.lines_append`: An unbroken text is one line.
* `Text.length_lines`: How many lines a text has.
* `Text.lines_behind`, `Text.lines_before`: The lines of a text behind another, and
  before another.
* `Text.lines_window`: The lines of a part of a text.
* `Text.unbroken_of_mem_lines`: Lines are unbroken.
* `Text.lines_ofLines`, `Text.lines_apart`, `Text.ofLines_append`: The lines of a text
  of whole lines.
* `Text.unbroken_replicate`, `Text.unbroken_ofNat`: Repeated bytes and numbers are
  unbroken.
* `Text.joinWith_cons`, `Text.joinWith_lines`, `Text.lines_joinWith`: A text is put
  together from its lines.
* `Text.unbroken_joinWith`: So is an unbroken text from unbroken ones.
-/

namespace BitLogic

namespace Text

/-- The lines one below the other, each with its line feed. -/
def ofLines (ls : List Text) : Text := ls.flatMap fun l => l ++ [lineFeed]

/-- The text has no line feed in it. -/
def Unbroken (t : Text) : Prop := lineFeed ∉ t

instance (t : Text) : Decidable t.Unbroken := inferInstanceAs (Decidable (lineFeed ∉ t))

@[simp]
theorem unbroken_nil : Unbroken [] := List.not_mem_nil

@[simp]
theorem unbroken_cons (b : UInt8) (t : Text) : Unbroken (b :: t) ↔ b ≠ lineFeed ∧ Unbroken t := by
  rw [Unbroken, List.mem_cons, not_or, eq_comm]
  rfl

@[simp]
theorem unbroken_append (s t : Text) : Unbroken (s ++ t) ↔ Unbroken s ∧ Unbroken t := by
  rw [Unbroken, List.mem_append, not_or]
  rfl

theorem lines_cons (b : UInt8) (t : Text) : lines (b :: t) =
    if b = lineFeed then [] :: lines t
    else match lines t with
      | [] => [[b]]
      | l :: ls => (b :: l) :: ls := rfl

/-- Every text has a line, if only an empty one. -/
theorem lines_ne_nil (t : Text) : lines t ≠ [] := by
  cases t with
  | nil => exact List.cons_ne_nil _ _
  | cons b t =>
      rw [lines_cons]
      by_cases hb : b = lineFeed
      · rw [if_pos hb]
        exact List.cons_ne_nil _ _
      · rw [if_neg hb]
        cases lines t <;> exact List.cons_ne_nil _ _

/-- The first line of a text, and the others. -/
theorem exists_lines_eq (t : Text) : ∃ l ls, lines t = l :: ls :=
  List.exists_cons_of_ne_nil (lines_ne_nil t)

/-- A line feed divides the lines before it from those behind it, by induction on what is
    before it. -/
theorem lines_break (s t : Text) : lines (s ++ lineFeed :: t) = lines s ++ lines t := by
  induction s with
  | nil =>
      rw [List.nil_append, lines_cons, if_pos rfl]
      rfl
  | cons b s ih =>
      rw [List.cons_append, lines_cons, lines_cons, ih]
      by_cases hb : b = lineFeed
      · rw [if_pos hb, if_pos hb, List.cons_append]
      · -- There is a first line on both sides, and the byte goes to the front of it.
        rcases exists_lines_eq s with ⟨l, ls, hls⟩
        rw [if_neg hb, if_neg hb, hls]
        rfl

/-- An unbroken text is its own only line. -/
theorem lines_of_unbroken (l : Text) (h : Unbroken l) : lines l = [l] := by
  induction l with
  | nil => rfl
  | cons b l ih =>
      rw [unbroken_cons] at h
      rw [lines_cons, if_neg h.1, ih h.2]

/-- A line feed ends the line before it. -/
theorem lines_append (l rest : Text) (h : Unbroken l) :
    lines (l ++ lineFeed :: rest) = l :: lines rest := by
  rw [lines_break, lines_of_unbroken l h, List.singleton_append]

/-- A text has one line more than it has line feeds. -/
@[simp]
theorem length_lines (t : Text) : (lines t).length = t.count lineFeed + 1 := by
  induction t with
  | nil => rfl
  | cons b t ih =>
      rw [lines_cons]
      by_cases hb : b = lineFeed
      · rw [if_pos hb, List.length_cons, ih, hb, List.count_cons_self]
      · -- A byte that is no line feed makes the first line longer.
        rcases exists_lines_eq t with ⟨l, ls, hls⟩
        rw [hls, List.length_cons] at ih
        rw [if_neg hb, hls, List.count_cons_of_ne hb, List.length_cons, ih]

/-- A text behind whole lines has its own lines, behind as many as there are line feeds. -/
theorem lines_behind (p t : Text) (h : p = [] ∨ p.getLast? = some lineFeed) :
    ∃ ls, lines (p ++ t) = ls ++ lines t ∧ ls.length = p.count lineFeed := by
  rcases h with rfl | hlast
  · exact ⟨[], rfl, rfl⟩
  · rcases List.getLast?_eq_some_iff.mp hlast with ⟨s, rfl⟩
    refine ⟨lines s, ?_, ?_⟩
    · rw [List.append_assoc, List.singleton_append, lines_break]
    · rw [length_lines, List.count_append, List.count_singleton_self]

/-- A text before a line feed has its own lines, with the others behind them. -/
theorem lines_before (t q : Text) (h : q = [] ∨ q.head? = some lineFeed) :
    ∃ ls, lines (t ++ q) = lines t ++ ls := by
  rcases h with rfl | hfirst
  · exact ⟨[], by rw [List.append_nil, List.append_nil]⟩
  · rcases List.head?_eq_some_iff.mp hfirst with ⟨s, rfl⟩
    exact ⟨lines s, lines_break t s⟩

/-- The lines of a part of a text that begins with a line and ends with one, found by
    counting line feeds. -/
theorem lines_window (p t q : Text) (hp : p = [] ∨ p.getLast? = some lineFeed)
    (hq : q = [] ∨ q.head? = some lineFeed) :
    lines t = ((lines (p ++ (t ++ q))).drop (p.count lineFeed)).take (t.count lineFeed + 1) := by
  -- The lines above are counted off by their line feeds, and those below are left out.
  rcases lines_behind p (t ++ q) hp with ⟨above, habove, hcount⟩
  rcases lines_before t q hq with ⟨below, hbelow⟩
  rw [habove, ← hcount, List.drop_left, hbelow, ← length_lines, List.take_left]

/-- The lines of a text are unbroken. -/
theorem unbroken_of_mem_lines (t : Text) : ∀ l ∈ lines t, Unbroken l := by
  induction t with
  | nil => exact List.forall_mem_singleton.mpr unbroken_nil
  | cons b t ih =>
      rw [lines_cons]
      by_cases hb : b = lineFeed
      · rw [if_pos hb]
        exact List.forall_mem_cons.mpr ⟨unbroken_nil, ih⟩
      · -- The byte goes to the front of the first line.
        rcases exists_lines_eq t with ⟨l, ls, hls⟩
        rw [hls, List.forall_mem_cons] at ih
        rw [if_neg hb, hls, List.forall_mem_cons]
        exact ⟨(unbroken_cons b l).mpr ⟨hb, ih.1⟩, ih.2⟩

/-- Whole lines in front of a text are its first lines. -/
theorem lines_ofLines (ls : List Text) (rest : Text) (h : ∀ l ∈ ls, Unbroken l) :
    lines (ofLines ls ++ rest) = ls ++ lines rest := by
  induction ls with
  | nil => rfl
  | cons l ls ih =>
      rw [List.forall_mem_cons] at h
      have hsplit : ofLines (l :: ls) ++ rest = l ++ lineFeed :: (ofLines ls ++ rest) := by
        rw [ofLines, List.flatMap_cons, List.append_assoc, List.append_assoc]
        rfl
      rw [hsplit, lines_append l _ h.1, ih h.2, List.cons_append]

/-- Two texts of whole lines with an empty line between them. -/
theorem lines_apart (ls ms : List Text) (hls : ∀ l ∈ ls, Unbroken l)
    (hms : ∀ l ∈ ms, Unbroken l) :
    lines (ofLines ls ++ [lineFeed] ++ ofLines ms) = ls ++ [[]] ++ ms ++ [[]] := by
  have hblank : lines (lineFeed :: ofLines ms) = [] :: lines (ofLines ms) :=
    lines_append [] (ofLines ms) unbroken_nil
  have hlast := lines_ofLines ms [] hms
  rw [List.append_nil] at hlast
  rw [List.append_assoc, lines_ofLines ls _ hls, List.singleton_append, hblank, hlast]
  simp only [List.append_assoc, List.singleton_append]
  rfl

@[simp]
theorem ofLines_append (ls ms : List Text) : ofLines (ls ++ ms) = ofLines ls ++ ofLines ms :=
  List.flatMap_append

theorem unbroken_replicate (n : Nat) (b : UInt8) (h : b ≠ lineFeed) :
    Unbroken (List.replicate n b) := by
  intro hmem
  exact h (List.eq_of_mem_replicate hmem).symm

@[simp]
theorem unbroken_ofNat (n : Nat) : Unbroken (ofNat n) := by
  intro hmem
  have hdigits := (isNumeral_ofNat n).2.1
  rw [List.all_eq_true] at hdigits
  exact absurd (hdigits lineFeed hmem) (by decide)

@[simp]
theorem joinWith_cons (sep t u : Text) (us : List Text) :
    joinWith sep (t :: u :: us) = t ++ sep ++ joinWith sep (u :: us) := rfl

/-- A text is put together from its lines. -/
@[simp]
theorem joinWith_lines (t : Text) : joinWith [lineFeed] (lines t) = t := by
  induction t with
  | nil => rfl
  | cons b t ih =>
      rw [lines_cons]
      rcases exists_lines_eq t with ⟨l, ls, hls⟩
      rw [hls] at ih ⊢
      by_cases hb : b = lineFeed
      · rw [if_pos hb, joinWith_cons, ih, hb]
        rfl
      · -- The byte goes to the front of the first line, and of what is put together.
        rw [if_neg hb, ← ih]
        cases ls <;> rfl

/-- Unbroken texts are the lines of what is put together from them. -/
theorem lines_joinWith (ls : List Text) (hne : ls ≠ []) (h : ∀ l ∈ ls, Unbroken l) :
    lines (joinWith [lineFeed] ls) = ls := by
  induction ls with
  | nil => exact absurd rfl hne
  | cons l ls ih =>
      rw [List.forall_mem_cons] at h
      cases ls with
      | nil => exact lines_of_unbroken l h.1
      | cons m ms =>
          rw [joinWith_cons, List.append_assoc, List.singleton_append, lines_append l _ h.1,
            ih (List.cons_ne_nil _ _) h.2]

theorem unbroken_joinWith (sep : Text) (hsep : Unbroken sep) (ts : List Text)
    (h : ∀ t ∈ ts, Unbroken t) : Unbroken (joinWith sep ts) := by
  induction ts with
  | nil => exact unbroken_nil
  | cons t ts ih =>
      rw [List.forall_mem_cons] at h
      cases ts with
      | nil => exact h.1
      | cons u us => simpa [h.1, hsep] using ih h.2

end Text

end BitLogic
