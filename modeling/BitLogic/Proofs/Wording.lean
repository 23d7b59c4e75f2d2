import BitLogic.Fault
import BitLogic.Proofs.Lines

/-!
# Wordings Stand on One Line

What is said about a fault, and how names, characters and spans are written there, has no line
feed in it.

Characters and names that come from a source are quoted, and a quoted text is never broken:
the line feed has an escape of its own, and no other code point is written with its byte
(`Quoted.unbroken_escape`). The wording of a cause is made of quoted characters, numbers and
fixed words, and of one text that is taken over as it is, if there is one (`Cause.quoted`). So
the wording is unbroken if that text is.

## Main definitions

* `Cause.quoted`: The text that a wording takes over as it is.

## Theorems

* `Text.unbroken_ofInt`, `Text.unbroken_hex`: Numbers are unbroken.
* `Utf8.unbroken_encode`: Characters are, the line feed apart.
* `Quoted.unbroken_shortEscape`, `Quoted.unbroken_escape`, `Quoted.unbroken_escapeAll`:
  What is escaped is unbroken.
* `Quoted.unbroken_char`, `Quoted.unbroken_text`: Quoted texts are unbroken.
* `Token.Kind.unbroken_name`, `Token.Kind.unbroken_text`: The kinds of tokens have
  unbroken names.
* `Cause.unbroken_ticked`, `Cause.unbroken_mismatch`: Two ways to put texts into a
  wording.
* `Cause.unbroken_message`: The wording of a cause is unbroken.
* `Span.unbroken_text`: A written span is unbroken.
-/

namespace BitLogic

open Text (Unbroken)

/-- A number is unbroken, with a sign or without. -/
@[simp]
theorem Text.unbroken_ofInt (i : Int) : Unbroken (ofInt i) := by
  unfold ofInt
  split <;> simp +decide

@[simp]
theorem Text.unbroken_hex (width n : Nat) : Unbroken (hex width n) := by
  have hdigit : ∀ d < 16, hexDigit d ≠ lineFeed := by decide
  intro hmem
  rcases List.mem_map.mp hmem with ⟨i, -, hi⟩
  exact hdigit _ (Nat.mod_lt _ (by decide)) hi

/-- Only the line feed is written with the byte of a line feed. -/
theorem Utf8.unbroken_encode (c : Nat) (h : c ≠ 10) : Unbroken (encode c) := by
  have hbyte : ∀ n : Nat, n % 256 ≠ 10 → UInt8.ofNat n ≠ Text.lineFeed := by
    intro n hn heq
    have heq := congrArg UInt8.toNat heq
    rw [UInt8.toNat_ofNat'] at heq
    exact hn heq
  unfold encode
  -- One case for each length of an encoding. All bytes but the only one of ASCII are too large.
  by_cases h1 : c < 0x80
  · rw [if_pos h1]
    simp only [Text.unbroken_cons, Text.unbroken_nil, and_true]
    exact hbyte c (by omega)
  by_cases h2 : c < 0x800
  · rw [if_neg h1, if_pos h2]
    simp only [Text.unbroken_cons, Text.unbroken_nil, and_true]
    exact ⟨hbyte _ (by omega), hbyte _ (by omega)⟩
  by_cases h3 : isScalar c = true
  · have hmax : c ≤ 0x10FFFF := by
      simp only [isScalar, Bool.or_eq_true, Bool.and_eq_true, decide_eq_true_eq] at h3
      omega
    rw [if_neg h1, if_neg h2, if_neg (by rw [h3]; decide)]
    by_cases h4 : c < 0x10000
    · rw [if_pos h4]
      simp only [Text.unbroken_cons, Text.unbroken_nil, and_true]
      exact ⟨hbyte _ (by omega), hbyte _ (by omega), hbyte _ (by omega)⟩
    · rw [if_neg h4]
      simp only [Text.unbroken_cons, Text.unbroken_nil, and_true]
      exact ⟨hbyte _ (by omega), hbyte _ (by omega), hbyte _ (by omega), hbyte _ (by omega)⟩
  · rw [if_neg h1, if_neg h2, if_pos (by rw [Bool.not_eq_true] at h3; rw [h3]; rfl)]
    decide

namespace Quoted

/-- The letters that stand for controls are no line feeds. -/
theorem unbroken_shortEscape (c : Nat) (letter : UInt8) (h : shortEscape? c = some letter) :
    Unbroken [92, letter] := by
  unfold shortEscape? at h
  split at h <;> simp only [Option.some.injEq, reduceCtorEq] at h <;> rw [← h] <;> decide

/-- Within quotation marks there is no line feed, since it is not printable and has an
    escape. -/
theorem unbroken_escape (mark c : Nat) (hmark : UInt8.ofNat mark ≠ Text.lineFeed) :
    Unbroken (escape mark c) := by
  unfold escape
  split
  · next hescaped =>
    -- A mark or a backslash stands behind a backslash.
    rw [Bool.or_eq_true, decide_eq_true_eq, decide_eq_true_eq] at hescaped
    simp only [Text.unbroken_cons, Text.unbroken_nil, and_true]
    refine ⟨by decide, ?_⟩
    rcases hescaped with rfl | rfl
    · exact hmark
    · decide
  · split
    · next hprint =>
      -- The line feed itself is not printable.
      refine Utf8.unbroken_encode c ?_
      rintro rfl
      exact absurd hprint (by decide +kernel)
    · split
      · next letter hletter => exact unbroken_shortEscape c letter hletter
      · -- The rest is written in hexadecimal, with two, four or eight digits.
        repeat' split
        all_goals simp +decide

@[simp]
theorem unbroken_char (c : Int) : Unbroken (char c) := by
  simp +decide [char, unbroken_escape]

/-- The code points of a text, escaped one after the other, are unbroken. -/
@[simp]
theorem unbroken_escapeAll (rs : List Utf8.CodePoint) : ∀ t : Text, Unbroken (escapeAll t rs) := by
  induction rs with
  | nil => exact fun t => Text.unbroken_nil
  | cons r rs ih =>
      intro t
      rw [escapeAll, Text.unbroken_append]
      refine ⟨?_, ih _⟩
      by_cases hr : r = .broken
      · -- A byte that is no character is written as a number.
        rw [if_pos hr]
        simp +decide
      · rw [if_neg hr]
        exact unbroken_escape 34 _ (by decide)

/-- A quoted text is unbroken. -/
@[simp]
theorem unbroken_text (t : Text) : Unbroken (text t) := by
  simp +decide [text]

end Quoted

namespace Token.Kind

@[simp]
theorem unbroken_name (k : Token.Kind) : Unbroken k.name := by
  cases k with
  | other code => simp +decide [name]
  | unexpected c => exact (by decide : Unbroken (Text.ofString "ErrorUnexpected"))
  | _ => decide

/-- The description of a kind is unbroken. It quotes the character that was unexpected. -/
@[simp]
theorem unbroken_text (k : Token.Kind) : Unbroken k.text := by
  cases k with
  | unexpected c => simp +decide [text]
  | other code => exact unbroken_name (.other code)
  | _ => decide

end Token.Kind

namespace Cause

/-- The text that the wording of a cause takes over as it is: the name that it is about, or
    all of it. -/
def quoted : Cause → Text
  | .undefinedVariable name => name
  | .arity name _ _ => name
  | .undefinedFunction name => name
  | .other _ message => message
  | _ => []

@[simp]
theorem unbroken_ticked (t : Text) : Unbroken (ticked t) ↔ Unbroken t := by
  simp +decide [ticked]

/-- What was wanted and what was there instead. -/
@[simp]
theorem unbroken_mismatch (wanted : Text) (got : Token.Kind) :
    Unbroken (mismatch wanted got) ↔ Unbroken wanted := by
  simp +decide [mismatch]

/-- A wording is unbroken if the text that it takes over is. -/
theorem unbroken_message (c : Cause) (h : Unbroken c.quoted) : Unbroken c.message := by
  cases c with
  | argLimit => simp +decide [message]
  | missingBit got => simp +decide [message]
  | badBit => decide
  | token wanted got => simp [message]
  | tokenAmong wanted got =>
      -- The kinds that were wanted are listed by their names.
      have hnames : Unbroken (Text.joinWith (Text.ofString ", ") (wanted.map Token.Kind.name)) := by
        refine Text.unbroken_joinWith _ (by decide) _ fun t ht => ?_
        rcases List.mem_map.mp ht with ⟨k, -, rfl⟩
        exact k.unbroken_name
      simp +decide [message, hnames]
  | number => decide
  | trailing got => simp +decide [message]
  | undefinedVariable name =>
      have hname : Unbroken name := h
      simp +decide [message, hname]
  | arity name wanted got =>
      have hname : Unbroken name := h
      rw [message]
      split <;> simp +decide [hname]
  | undefinedFunction name =>
      have hname : Unbroken name := h
      simp +decide [message, hname]
  | other category message => exact h

end Cause

@[simp]
theorem Span.unbroken_text (s : Span) : Unbroken s.text := by
  simp +decide [text]

end BitLogic
