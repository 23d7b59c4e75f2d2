import BitLogic.Text.Utf8
import BitLogic.Proofs.Basics

/-!
# Which Character a Text Begins With

Decoding reads a text one code point at a time and never fails. What it should read is
said here without it: if a text begins with the encoding of a character, that character,
and otherwise a single byte in the place of which the replacement character stands.

The bridge between the two is the table of well-formed sequences. It has one row per
length and says which bytes may stand where. `Sequence` is that table. Decoding finds a
row or gives up (`decode_cases`), a row at the head of a text is what decoding finds
(`decode_of_sequence`), and the rows are the encodings of the characters, no more and no
less (`sequence_of_char`, `char_of_sequence`). Overlong forms, surrogates, cut off
sequences and stray continuation bytes have no row, so there is nothing to say about
them one by one.

Two things that others need follow from the table. A character depends on its own bytes
and not on those behind it (`code_of_yields`, `decode_cut`), and behind its first byte it
has no ASCII, so ASCII always stands for itself.

## Main definitions

* `Utf8.Sequence`: Well-formed sequences of bytes and what they stand for.
* `Utf8.Yields`: The character that a text begins with, and its width.

## Theorems

* `Utf8.isTail_iff`, `Utf8.secondFits_iff`: The bounds on bytes as bounds on numbers.
* `Utf8.decode_of_sequence`: A sequence at the head of a text is decoded.
* `Utf8.decode_cases`: Nothing else is decoded.
* `Utf8.sequence_of_char`, `Utf8.char_of_sequence`: Sequences are the encodings of
  characters.
* `Utf8.ofNat_eq_of_toNat`, `Utf8.exists_char`: The byte and the character of a number.
* `Utf8.decode_char`: The encoding of a character is decoded to it.
* `Utf8.not_isPrefix_of_broken`: Where decoding gives up there is no character.
* `Utf8.yields_iff_decode`: Decoding reads the character that a text begins with.
* `Utf8.text_of_yields`: What was read is the encoding of a character, or of none.
* `Utf8.code_of_yields`: A character does not depend on the bytes behind it.
* `Utf8.ge_of_isTail`, `Utf8.ge_of_secondFits`: Bytes that continue a sequence are not
  ASCII.
* `Utf8.tail_of_sequence`, `Utf8.tail_of_yields`: Behind its first byte a character has
  no ASCII.
* `Utf8.decode_cut`: A character that ends within a text is read from the text alone.
* `Utf8.decode_before_ascii`: A character does not reach into ASCII behind it.
* `Utf8.codePoints_ascii`: ASCII is read byte by byte.
-/

namespace BitLogic

namespace Utf8

theorem isTail_iff (b : UInt8) : isTail b = true ↔ 128 ≤ b.toNat ∧ b.toNat ≤ 191 :=
  UInt8.between_iff b 0x80 0xBF

/-- The bounds on the second byte of a longer sequence. Four first bytes have bounds of
    their own, the others those of any byte that continues. -/
theorem secondFits_iff (b b₁ : UInt8) : secondFits b b₁ = true ↔
    (128 ≤ b₁.toNat ∧ b₁.toNat ≤ 191) ∧ (b.toNat = 224 → 160 ≤ b₁.toNat) ∧
      (b.toNat = 237 → b₁.toNat ≤ 159) ∧ (b.toNat = 240 → 144 ≤ b₁.toNat) ∧
      (b.toNat = 244 → b₁.toNat ≤ 143) := by
  -- The tests compare bytes, the bounds are on numbers.
  have hb : ∀ n : UInt8, b = n ↔ b.toNat = n.toNat := fun n => UInt8.toNat_inj.symm
  unfold secondFits
  simp only [hb, UInt8.reduceToNat]
  repeat' split
  all_goals simp only [isTail_iff, UInt8.between_iff, UInt8.reduceToNat]
  all_goals omega

/-- The well-formed sequences of one to four bytes, with the code points that they stand
    for. -/
inductive Sequence : Text → Nat → Prop
  | one (b : UInt8) (h : b.toNat < 128) : Sequence [b] b.toNat
  | two (b b₁ : UInt8) (h : 194 ≤ b.toNat ∧ b.toNat ≤ 223) (h₁ : isTail b₁ = true) :
      Sequence [b, b₁] (b.toNat % 32 * 64 + b₁.toNat % 64)
  | three (b b₁ b₂ : UInt8) (h : 224 ≤ b.toNat ∧ b.toNat ≤ 239) (h₁ : secondFits b b₁ = true)
      (h₂ : isTail b₂ = true) :
      Sequence [b, b₁, b₂] (b.toNat % 16 * 4096 + b₁.toNat % 64 * 64 + b₂.toNat % 64)
  | four (b b₁ b₂ b₃ : UInt8) (h : 240 ≤ b.toNat ∧ b.toNat ≤ 244) (h₁ : secondFits b b₁ = true)
      (h₂ : isTail b₂ = true) (h₃ : isTail b₃ = true) :
      Sequence [b, b₁, b₂, b₃]
        (b.toNat % 8 * 262144 + b₁.toNat % 64 * 4096 + b₂.toNat % 64 * 64 + b₃.toNat % 64)

/-- A sequence at the head of a text is decoded in its whole length. -/
theorem decode_of_sequence (s more : Text) (code : Nat) (h : Sequence s code) (b : UInt8)
    (rest : Text) (hs : b :: rest = s ++ more) : decode b rest = ⟨code, s.length⟩ := by
  cases h with
  | one b' h =>
      rcases List.cons.inj hs with ⟨rfl, rfl⟩
      unfold decode
      rw [if_pos (UInt8.lt_iff_toNat_lt.mpr h)]
      rfl
  | two b' b₁ h h₁ =>
      rw [List.cons_append, List.cons_append, List.nil_append, List.cons.injEq] at hs
      rcases hs with ⟨rfl, rfl⟩
      -- The first byte rules out the branches before its own.
      unfold decode
      simp only [UInt8.lt_iff_toNat_lt, UInt8.between_iff, UInt8.reduceToNat]
      rw [if_neg (by omega), if_pos (by omega), if_pos h₁]
      rfl
  | three b' b₁ b₂ h h₁ h₂ =>
      rw [List.cons_append, List.cons_append, List.cons_append, List.nil_append,
        List.cons.injEq] at hs
      rcases hs with ⟨rfl, rfl⟩
      unfold decode
      simp only [UInt8.lt_iff_toNat_lt, UInt8.between_iff, UInt8.reduceToNat]
      rw [if_neg (by omega), if_neg (by omega), if_pos (by omega), if_pos (by rw [h₁, h₂]; rfl)]
      rfl
  | four b' b₁ b₂ b₃ h h₁ h₂ h₃ =>
      rw [List.cons_append, List.cons_append, List.cons_append, List.cons_append,
        List.nil_append, List.cons.injEq] at hs
      rcases hs with ⟨rfl, rfl⟩
      unfold decode
      simp only [UInt8.lt_iff_toNat_lt, UInt8.between_iff, UInt8.reduceToNat]
      rw [if_neg (by omega), if_neg (by omega), if_neg (by omega), if_pos (by omega),
        if_pos (by rw [h₁, h₂, h₃]; rfl)]
      rfl

/-- Decoding finds a sequence at the head of the text, or reads a single byte as
    broken. -/
theorem decode_cases (b : UInt8) (rest : Text) :
    decode b rest = .broken ∨ ∃ s more code, b :: rest = s ++ more ∧ Sequence s code := by
  -- One branch for each row of the table, tried in the order of the first bytes.
  unfold decode
  simp only [UInt8.lt_iff_toNat_lt, UInt8.between_iff, UInt8.reduceToNat]
  split
  · next h => exact Or.inr ⟨[b], rest, _, rfl, .one b h⟩
  split
  · next h =>
    cases rest with
    | nil => exact Or.inl rfl
    | cons b₁ rest =>
        by_cases h₁ : isTail b₁ = true
        · exact Or.inr ⟨[b, b₁], rest, _, rfl, .two b b₁ h h₁⟩
        · exact Or.inl (if_neg h₁)
  split
  · next h =>
    split
    · next b₁ b₂ rest =>
      by_cases hfit : (secondFits b b₁ && isTail b₂) = true
      · rw [Bool.and_eq_true] at hfit
        exact Or.inr ⟨[b, b₁, b₂], rest, _, rfl, .three b b₁ b₂ h hfit.1 hfit.2⟩
      · exact Or.inl (if_neg hfit)
    · exact Or.inl rfl
  split
  · next h =>
    split
    · next b₁ b₂ b₃ rest =>
      by_cases hfit : (secondFits b b₁ && isTail b₂ && isTail b₃) = true
      · rw [Bool.and_eq_true, Bool.and_eq_true] at hfit
        exact Or.inr ⟨[b, b₁, b₂, b₃], rest, _, rfl,
          .four b b₁ b₂ b₃ h hfit.1.1 hfit.1.2 hfit.2⟩
      · exact Or.inl (if_neg hfit)
    · exact Or.inl rfl
  · exact Or.inl rfl

/-- The encoding of a character is a sequence. -/
theorem sequence_of_char (c : Char) : Sequence (String.utf8EncodeChar c) c.toNat := by
  have hvalid : c.toNat < 0xD800 ∨ 0xDFFF < c.toNat ∧ c.toNat < 0x110000 := c.valid
  unfold String.utf8EncodeChar
  simp only [show c.val.toNat = c.toNat from rfl]
  -- From here on only the number matters, with the bounds that a character has.
  generalize c.toNat = v at *
  split
  · have hrow := Sequence.one (.ofNat v) (by rw [UInt8.toNat_ofNat']; omega)
    rw [UInt8.toNat_ofNat'] at hrow
    rwa [show v % 2 ^ 8 = v by omega] at hrow
  split
  · have hrow := Sequence.two (.ofNat (v / 64 % 32 + 192)) (.ofNat (v % 64 + 128))
      (by rw [UInt8.toNat_ofNat']; omega) (by rw [isTail_iff, UInt8.toNat_ofNat']; omega)
    rw [UInt8.toNat_ofNat', UInt8.toNat_ofNat'] at hrow
    -- The bits that the bytes carry are those of the code point.
    rwa [show (v / 64 % 32 + 192) % 2 ^ 8 % 32 * 64 + (v % 64 + 128) % 2 ^ 8 % 64 = v by
      omega] at hrow
  split
  · have hrow := Sequence.three (.ofNat (v / 4096 % 16 + 224)) (.ofNat (v / 64 % 64 + 128))
      (.ofNat (v % 64 + 128)) (by rw [UInt8.toNat_ofNat']; omega)
      (by rw [secondFits_iff, UInt8.toNat_ofNat', UInt8.toNat_ofNat']; omega)
      (by rw [isTail_iff, UInt8.toNat_ofNat']; omega)
    rw [UInt8.toNat_ofNat', UInt8.toNat_ofNat', UInt8.toNat_ofNat'] at hrow
    rwa [show (v / 4096 % 16 + 224) % 2 ^ 8 % 16 * 4096 + (v / 64 % 64 + 128) % 2 ^ 8 % 64 * 64 +
      (v % 64 + 128) % 2 ^ 8 % 64 = v by omega] at hrow
  · have hrow := Sequence.four (.ofNat (v / 262144 % 8 + 240)) (.ofNat (v / 4096 % 64 + 128))
      (.ofNat (v / 64 % 64 + 128)) (.ofNat (v % 64 + 128)) (by rw [UInt8.toNat_ofNat']; omega)
      (by rw [secondFits_iff, UInt8.toNat_ofNat', UInt8.toNat_ofNat']; omega)
      (by rw [isTail_iff, UInt8.toNat_ofNat']; omega)
      (by rw [isTail_iff, UInt8.toNat_ofNat']; omega)
    rw [UInt8.toNat_ofNat', UInt8.toNat_ofNat', UInt8.toNat_ofNat', UInt8.toNat_ofNat'] at hrow
    rwa [show (v / 262144 % 8 + 240) % 2 ^ 8 % 8 * 262144 +
      (v / 4096 % 64 + 128) % 2 ^ 8 % 64 * 4096 + (v / 64 % 64 + 128) % 2 ^ 8 % 64 * 64 +
      (v % 64 + 128) % 2 ^ 8 % 64 = v by omega] at hrow

theorem ofNat_eq_of_toNat (b : UInt8) (n : Nat) (h : n = b.toNat) : UInt8.ofNat n = b := by
  rw [h, UInt8.ofNat_toNat]

/-- A code point that is neither a surrogate nor above the last plane is a character. -/
theorem exists_char (v : Nat) (h : v < 0xD800 ∨ 0xDFFF < v ∧ v < 0x110000) :
    ∃ c : Char, c.val.toNat = v :=
  ⟨Char.ofNatAux v h, rfl⟩

/-- A sequence is the encoding of a character. -/
theorem char_of_sequence (s : Text) (code : Nat) (h : Sequence s code) :
    ∃ c : Char, c.toNat = code ∧ String.utf8EncodeChar c = s := by
  cases h with
  | one b h =>
      rcases exists_char b.toNat (by omega) with ⟨c, hc⟩
      refine ⟨c, hc, ?_⟩
      unfold String.utf8EncodeChar
      rw [hc, if_pos (by omega), UInt8.ofNat_toNat]
  | two b b₁ h h₁ =>
      rw [isTail_iff] at h₁
      rcases exists_char (b.toNat % 32 * 64 + b₁.toNat % 64) (by omega) with ⟨c, hc⟩
      refine ⟨c, hc, ?_⟩
      unfold String.utf8EncodeChar
      rw [hc, if_neg (by omega), if_pos (by omega), ofNat_eq_of_toNat b _ (by omega),
        ofNat_eq_of_toNat b₁ _ (by omega)]
  | three b b₁ b₂ h h₁ h₂ =>
      -- The bounds on the second byte keep out surrogates and forms that are too long.
      rw [secondFits_iff] at h₁
      rw [isTail_iff] at h₂
      rcases exists_char (b.toNat % 16 * 4096 + b₁.toNat % 64 * 64 + b₂.toNat % 64)
        (by omega) with ⟨c, hc⟩
      refine ⟨c, hc, ?_⟩
      unfold String.utf8EncodeChar
      rw [hc, if_neg (by omega), if_neg (by omega), if_pos (by omega),
        ofNat_eq_of_toNat b _ (by omega), ofNat_eq_of_toNat b₁ _ (by omega),
        ofNat_eq_of_toNat b₂ _ (by omega)]
  | four b b₁ b₂ b₃ h h₁ h₂ h₃ =>
      rw [secondFits_iff] at h₁
      rw [isTail_iff] at h₂ h₃
      rcases exists_char (b.toNat % 8 * 262144 + b₁.toNat % 64 * 4096 + b₂.toNat % 64 * 64 +
        b₃.toNat % 64) (by omega) with ⟨c, hc⟩
      refine ⟨c, hc, ?_⟩
      unfold String.utf8EncodeChar
      rw [hc, if_neg (by omega), if_neg (by omega), if_neg (by omega),
        ofNat_eq_of_toNat b _ (by omega), ofNat_eq_of_toNat b₁ _ (by omega),
        ofNat_eq_of_toNat b₂ _ (by omega), ofNat_eq_of_toNat b₃ _ (by omega)]

/-- What a text begins with: a character whose encoding stands there, with the length of
    that encoding, or else one byte that is read as the replacement character. -/
inductive Yields : Text → Nat → Nat → Prop
  | char (c : Char) (more : Text) :
      Yields (String.utf8EncodeChar c ++ more) c.toNat (String.utf8EncodeChar c).length
  | broken (b : UInt8) (more : Text) (h : ∀ c : Char, ¬ String.utf8EncodeChar c <+: b :: more) :
      Yields (b :: more) 65533 1

theorem decode_char (c : Char) (more : Text) (b : UInt8) (rest : Text)
    (h : b :: rest = String.utf8EncodeChar c ++ more) :
    decode b rest = ⟨c.toNat, (String.utf8EncodeChar c).length⟩ :=
  decode_of_sequence _ more _ (sequence_of_char c) b rest h

/-- Where decoding gives up there is no character. The replacement character itself has
    three bytes, so it is not mistaken for one. -/
theorem not_isPrefix_of_broken (b : UInt8) (rest : Text) (h : decode b rest = .broken)
    (c : Char) : ¬ String.utf8EncodeChar c <+: b :: rest := by
  rintro ⟨more, hmore⟩
  rw [decode_char c more b rest hmore.symm, CodePoint.broken, CodePoint.mk.injEq] at h
  have hc : c.val.toNat = 65533 := h.1
  have hlen := h.2
  -- The replacement character is encoded in three bytes, a broken one has one.
  unfold String.utf8EncodeChar at hlen
  rw [hc, if_neg (by decide), if_neg (by decide), if_pos (by decide)] at hlen
  simp only [List.length_cons, List.length_nil, Nat.reduceAdd, Nat.reduceEqDiff] at hlen

/-- Decoding reads what a text begins with. -/
theorem yields_iff_decode (b : UInt8) (rest : Text) (code width : Nat) :
    Yields (b :: rest) code width ↔ decode b rest = ⟨code, width⟩ := by
  constructor
  · intro h
    generalize hsrc : b :: rest = src at h
    cases h with
    | char c more => exact decode_char c more b rest hsrc
    | broken b' more hno =>
        rcases decode_cases b rest with hbroken | ⟨s, more', code, hs, hseq⟩
        · exact hbroken
        · -- A sequence that is found would be the encoding of a character.
          rcases char_of_sequence s code hseq with ⟨c, -, rfl⟩
          exact absurd ⟨more', hs.symm.trans hsrc⟩ (hno c)
  · intro h
    rcases decode_cases b rest with hbroken | ⟨s, more, code', hs, hseq⟩
    · -- Nothing was found, so what was read is the replacement character in one byte.
      rw [h, CodePoint.broken, CodePoint.mk.injEq] at hbroken
      rw [hbroken.1, hbroken.2]
      refine .broken b rest (not_isPrefix_of_broken b rest ?_)
      rw [h, hbroken.1, hbroken.2]
      rfl
    · rcases char_of_sequence s code' hseq with ⟨c, -, rfl⟩
      rw [decode_char c more b rest hs, CodePoint.mk.injEq] at h
      rw [hs, ← h.1, ← h.2]
      exact .char c more

/-- What is read at a position, said about the bytes that are read. -/
theorem text_of_yields (s after : Text) (code : Nat) (h : Yields (s ++ after) code s.length) :
    (∃ c : Char, s = String.utf8EncodeChar c ∧ code = c.toNat) ∨
      code = 65533 ∧ ∀ c : Char, s ≠ String.utf8EncodeChar c := by
  -- Neither the text nor its length is a variable, so both are named before the cases.
  generalize hall : s ++ after = all, hn : s.length = n at h
  cases h with
  | char c more => exact Or.inl ⟨c, (List.append_inj hall hn).1, rfl⟩
  | broken b more hnone =>
      refine Or.inr ⟨rfl, fun c hc => hnone c ?_⟩
      rw [← hall, ← hc]
      exact List.prefix_append s after

/-- A character does not depend on the bytes behind it. -/
theorem code_of_yields (s after after' : Text) (code code' : Nat)
    (h : Yields (s ++ after) code s.length) (h' : Yields (s ++ after') code' s.length) :
    code = code' := by
  rcases text_of_yields s after code h with ⟨c, hc, rfl⟩ | ⟨rfl, hnone⟩
  · rcases text_of_yields s after' code' h' with ⟨c', hc', rfl⟩ | ⟨rfl, hnone⟩
    · -- One encoding is decoded to one character only.
      rcases hs : s with _ | ⟨b, rest⟩
      · exact absurd (hc.symm.trans hs) (String.utf8EncodeChar_ne_nil)
      · have hd := decode_char c [] b rest (by rw [← hs, hc, List.append_nil])
        have hd' := decode_char c' [] b rest (by rw [← hs, hc', List.append_nil])
        rw [hd] at hd'
        exact (CodePoint.mk.inj hd').1
    · exact absurd hc (hnone c)
  · rcases text_of_yields s after' code' h' with ⟨c', hc', rfl⟩ | ⟨rfl, -⟩
    · exact absurd hc' (hnone c')
    · rfl

/-! ## Characters and ASCII -/

theorem ge_of_isTail (b : UInt8) (h : isTail b = true) : 128 ≤ b.toNat :=
  ((isTail_iff b).mp h).1

theorem ge_of_secondFits (b c : UInt8) (h : secondFits b c = true) : 128 ≤ c.toNat :=
  ((secondFits_iff b c).mp h).1.1

/-- Behind its first byte, a sequence has no ASCII. -/
theorem tail_of_sequence (s : Text) (code : Nat) (h : Sequence s code) :
    ∀ b ∈ s.tail, 128 ≤ b.toNat := by
  intro x hx
  cases h with
  | one b h => exact absurd hx List.not_mem_nil
  | two b b₁ h h₁ =>
      rw [List.tail_cons, List.mem_singleton] at hx
      exact hx ▸ ge_of_isTail b₁ h₁
  | three b b₁ b₂ h h₁ h₂ =>
      rw [List.tail_cons, List.mem_cons, List.mem_singleton] at hx
      rcases hx with rfl | rfl
      · exact ge_of_secondFits b x h₁
      · exact ge_of_isTail x h₂
  | four b b₁ b₂ b₃ h h₁ h₂ h₃ =>
      rw [List.tail_cons, List.mem_cons, List.mem_cons, List.mem_singleton] at hx
      rcases hx with rfl | rfl | rfl
      · exact ge_of_secondFits b x h₁
      · exact ge_of_isTail x h₂
      · exact ge_of_isTail x h₃

/-- A character that ends within a text does not depend on what stands behind the text. -/
theorem decode_cut (b : UInt8) (s rest : Text)
    (h : (decode b (s ++ rest)).width ≤ s.length + 1) : decode b s = decode b (s ++ rest) := by
  rcases decode_cases b (s ++ rest) with hbroken | ⟨q, more, code, hq, hseq⟩
  · -- A character of the text alone would be read in the longer text too.
    rcases decode_cases b s with hbroken' | ⟨q, more, code, hq, hseq⟩
    · rw [hbroken, hbroken']
    · have hlong : b :: (s ++ rest) = q ++ (more ++ rest) := by
        rw [← List.cons_append, hq, List.append_assoc]
      rw [decode_of_sequence q more code hseq b s hq,
        decode_of_sequence q _ code hseq b _ hlong]
  · rw [decode_of_sequence q more code hseq b _ hq] at h
    have hpre : q <+: b :: s :=
      List.prefix_of_prefix_length_le ⟨more, hq.symm⟩ (List.prefix_append (b :: s) rest) h
    rcases hpre with ⟨more', hmore'⟩
    rw [decode_of_sequence q more' code hseq b s hmore'.symm,
      decode_of_sequence q more code hseq b _ hq]

/-- A character does not reach into ASCII behind it, and is not completed by it. -/
theorem decode_before_ascii (b w : UInt8) (s rest : Text) (hw : w.toNat < 128) :
    decode b (s ++ w :: rest) = decode b s := by
  refine (decode_cut b s (w :: rest) ?_).symm
  rcases decode_cases b (s ++ w :: rest) with hbroken | ⟨q, more, code, hq, hseq⟩
  · rw [hbroken]
    exact Nat.le_add_left 1 s.length
  · rw [decode_of_sequence q more code hseq b _ hq]
    by_contra hlong
    simp only [Nat.not_le] at hlong
    -- The ASCII byte would be one of the bytes behind the first.
    have hget : q[(b :: s).length]? = some w := by
      have hall : (q ++ more)[(b :: s).length]? = some w := by
        rw [← hq, ← List.cons_append, List.getElem?_append_right (Nat.le_refl _), Nat.sub_self,
          List.getElem?_cons_zero]
      rwa [List.getElem?_append_left (by rw [List.length_cons]; omega)] at hall
    have htail : w ∈ q.tail := by
      rw [List.length_cons, ← List.getElem?_tail] at hget
      exact List.mem_of_getElem? hget
    have hge := tail_of_sequence q code hseq w htail
    omega

/-- A character that is read at the head of a text is all in bytes of 128 and more, its first
    byte apart. -/
theorem tail_of_yields (b : UInt8) (s after : Text) (code : Nat)
    (h : Yields (b :: s ++ after) code (b :: s).length) : ∀ c ∈ s, 128 ≤ c.toNat := by
  rw [List.cons_append, yields_iff_decode] at h
  rcases decode_cases b (s ++ after) with hbroken | ⟨q, more, code', hq, hseq⟩
  · rw [hbroken] at h
    have hwidth : 1 = s.length + 1 := congrArg CodePoint.width h
    have hnil : s = [] := List.length_eq_zero_iff.mp (Nat.succ.inj hwidth).symm
    rw [hnil]
    exact List.forall_mem_nil _
  · rw [decode_of_sequence q more code' hseq b (s ++ after) hq] at h
    have hlen : q.length = (b :: s).length := congrArg CodePoint.width h
    have hq : (b :: s) ++ after = q ++ more := hq
    -- The sequence that was found and the text that was read have one length.
    have hsame := (List.append_inj hq hlen.symm).1
    have htail := tail_of_sequence q code' hseq
    rw [← hsame] at htail
    exact htail

/-- ASCII is read byte by byte. -/
theorem codePoints_ascii (t : Text) (h : ∀ b ∈ t, b.toNat < 128) :
    codePoints t = t.map fun b => ⟨b.toNat, 1⟩ := by
  induction t with
  | nil => rw [codePoints, List.map_nil]
  | cons b t ih =>
      rw [List.forall_mem_cons] at h
      -- The first branch of decoding takes every such byte.
      have hone : decode b t = ⟨b.toNat, 1⟩ := by
        unfold decode
        rw [if_pos (UInt8.lt_iff_toNat_lt.mpr h.1)]
      rw [codePoints, hone, List.map_cons, Nat.sub_self, List.drop_zero, ih h.2]

end Utf8

end BitLogic
