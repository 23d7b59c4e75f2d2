import BitLogic.Token

/-!
# Digits in a Word

Reading a number never holds more than a word of 64 bits, however many digits there are.

A word that is about to get one more digit is multiplied by ten and then added to, and
either step may leave the range of words. The two are guarded in different ways. A word
that cannot be multiplied is recognised beforehand, by comparing it with the least such
word. A sum that has wrapped around is recognised afterwards, because it is then less than
what was added to. Neither test alone is enough at the upper end: the greatest word that
passes the first one, with a digit from 6 on behind it, is caught by the second.

`appendDigit?_eq_some_iff` says that the tests together are exact, so a word that comes
out is the number that was meant. A run of digits is read by appending one after the
other. Digits only make a number larger, so one that was given up on the way does not fit
at the end, and leading zeros cost nothing.

What a number is, is said without words: a numeral is a run of digits, and it has a value.
A number is read if and only if it is a numeral of a value that is a word, and every number
has a numeral, the one in which it is printed.

## Main definitions

* `IsNumeral`: Digits with a given value.

## Theorems

* `Text.le_foldl_digits`: Digits behind a number make it no smaller.
* `Token.isDigit_iff`: The bytes of digits.
* `Token.toNat_digit`: The value of a digit.
* `Token.toNat_tens`: A word that passes the first test can be multiplied by ten.
* `Token.wraps_iff`: What the second test sees.
* `Token.appendDigit?_eq_some_iff`: One more digit behind a word.
* `Token.foldlM_appendDigit?_eq_some_iff`: A run of digits behind a word.
* `Token.numberValue?_eq_some_iff`: Which texts are read as which number.
* `isNumeral_ofNat`: The decimal form of a number is a numeral of it.
-/

namespace BitLogic

/-- Digits behind a number make it no smaller. -/
theorem Text.le_foldl_digits (t : Text) : ∀ v : Nat,
    v ≤ t.foldl (fun v d => v * 10 + (d.toNat - 48)) v := by
  induction t with
  | nil => intro v; exact Nat.le_refl v
  | cons d t ih =>
      intro v
      exact Nat.le_trans (by omega) (ih (v * 10 + (d.toNat - 48)))

/-- The text is a run of digits with the given value. -/
def IsNumeral (n : Nat) (s : Text) : Prop :=
  s ≠ [] ∧ s.all Token.isDigit = true ∧ Text.decimalValue s = n

instance (n : Nat) (s : Text) : Decidable (IsNumeral n s) :=
  inferInstanceAs (Decidable (_ ∧ _ ∧ _))

namespace Token

theorem isDigit_iff (b : UInt8) : isDigit b = true ↔ 48 ≤ b.toNat ∧ b.toNat ≤ 57 := by
  rw [isDigit, Bool.and_eq_true, decide_eq_true_eq, decide_eq_true_eq,
    UInt8.le_iff_toNat_le, UInt8.le_iff_toNat_le]
  rfl

theorem toNat_digit (b : UInt8) (h : isDigit b = true) :
    (b - 48).toUInt64.toNat = b.toNat - 48 := by
  rw [isDigit_iff] at h
  have hb : (48 : UInt8) ≤ b := UInt8.le_iff_toNat_le.mpr h.1
  rw [UInt8.toNat_toUInt64, UInt8.toNat_sub_of_le _ _ hb]
  rfl

/-- A word that passes the first test can be multiplied by ten. -/
theorem toNat_tens (n : UInt64) (h : n < tooManyTens) : (n * 10).toNat = n.toNat * 10 := by
  have hn : n.toNat < 1844674407370955162 := UInt64.lt_iff_toNat_lt.mp h
  have hten : (10 : UInt64).toNat = 10 := rfl
  rw [UInt64.toNat_mul, hten]
  exact Nat.mod_eq_of_lt (by omega)

/-- A sum with a digit is less than what the digit was added to exactly if it has wrapped
    around. -/
theorem wraps_iff (n : UInt64) (b : UInt8) (hb : isDigit b = true) (hn : n < tooManyTens) :
    n * 10 + (b - 48).toUInt64 < n * 10 ↔ Word.size ≤ n.toNat * 10 + (b.toNat - 48) := by
  have hsmall : n.toNat < 1844674407370955162 := UInt64.lt_iff_toNat_lt.mp hn
  have hrange := (isDigit_iff b).mp hb
  -- Modulo the number of words the sum is what it is or one round less.
  rw [UInt64.lt_iff_toNat_lt, UInt64.toNat_add, toNat_tens n hn, toNat_digit b hb, Word.size]
  omega

/-- The two tests for leaving the range of words are exact: a word with a digit behind it
    is given up if and only if it is no word. -/
theorem appendDigit?_eq_some_iff (n m : UInt64) (b : UInt8) : appendDigit? n b = some m ↔
    isDigit b = true ∧ m.toNat = n.toNat * 10 + (b.toNat - 48) := by
  have hm : m.toNat < 18446744073709551616 := m.toNat_lt
  -- The tests are made in this order: digit, tens, sum.
  unfold appendDigit?
  by_cases hb : isDigit b = true
  · by_cases hn : n < tooManyTens
    · have hwrap := wraps_iff n b hb hn
      simp only [hb, hn, decide_true, Bool.and_self, if_true, true_and]
      by_cases hover : Word.size ≤ n.toNat * 10 + (b.toNat - 48)
      · rw [if_pos (hwrap.mpr hover)]
        rw [Word.size] at hover
        simp only [reduceCtorEq, false_iff]
        omega
      · rw [if_neg (fun h => hover (hwrap.mp h)), Option.some.injEq, ← UInt64.toNat_inj,
          UInt64.toNat_add, toNat_tens n hn, toNat_digit b hb]
        rw [Word.size] at hover
        rw [Nat.mod_eq_of_lt (by omega)]
        exact eq_comm
    · -- Ten times the word is out of range already.
      have hlarge : 1844674407370955162 ≤ n.toNat :=
        Nat.le_of_not_lt fun h => hn (UInt64.lt_iff_toNat_lt.mpr h)
      simp only [hb, hn, decide_false, Bool.and_false, Bool.false_eq_true, if_false,
        reduceCtorEq, true_and, false_iff]
      omega
  · rw [Bool.not_eq_true] at hb
    simp only [hb, Bool.false_and, Bool.false_eq_true, if_false, reduceCtorEq, false_and]

/-- A run of digits behind a word is read exactly, by induction on the run. A prefix that
    is no word is given up rightly, since the digits behind it do not make it smaller. -/
theorem foldlM_appendDigit?_eq_some_iff (t : Text) : ∀ n m : UInt64,
    t.foldlM appendDigit? n = some m ↔ t.all isDigit = true ∧
      m.toNat = t.foldl (fun v d => v * 10 + (d.toNat - 48)) n.toNat := by
  induction t with
  | nil =>
      intro n m
      have hpure : (some n = some m) ↔ m.toNat = n.toNat := by
        rw [Option.some.injEq, ← UInt64.toNat_inj]
        exact eq_comm
      rw [List.foldlM_nil, List.all_nil, List.foldl_nil, eq_self_iff_true, true_and]
      exact hpure
  | cons b t ih =>
      intro n m
      rw [List.foldlM_cons, List.all_cons, Bool.and_eq_true, List.foldl_cons, and_assoc]
      constructor
      · intro h
        rcases Option.bind_eq_some_iff.mp h with ⟨k, hk, hm⟩
        rcases (appendDigit?_eq_some_iff n k b).mp hk with ⟨hb, hvalue⟩
        rw [← hvalue]
        exact ⟨hb, (ih k m).mp hm⟩
      · rintro ⟨hb, hm⟩
        -- The number at the end is a word, so the one on the way is.
        have hfits : n.toNat * 10 + (b.toNat - 48) < 18446744073709551616 := by
          refine Nat.lt_of_le_of_lt (Text.le_foldl_digits t _) ?_
          rw [← hm.2]
          exact m.toNat_lt
        have hword : (UInt64.ofNat (n.toNat * 10 + (b.toNat - 48))).toNat =
            n.toNat * 10 + (b.toNat - 48) := UInt64.toNat_ofNat_of_lt' hfits
        rw [← hword] at hm
        exact Option.bind_eq_some_iff.mpr
          ⟨_, (appendDigit?_eq_some_iff n _ b).mpr ⟨hb, hword⟩, (ih _ m).mpr hm⟩

/-- A text is read as a number if and only if it is a numeral of it and the number is a
    word. -/
theorem numberValue?_eq_some_iff (s : Text) (n : Nat) :
    numberValue? s = some n ↔ IsNumeral n s ∧ n < Word.size := by
  unfold numberValue? IsNumeral Text.decimalValue
  cases s with
  | nil => simp only [List.isEmpty_nil, if_true, reduceCtorEq, ne_eq, not_true, false_and]
  | cons b s =>
      have hdigits := foldlM_appendDigit?_eq_some_iff (b :: s) 0
      simp only [List.isEmpty_cons, Bool.false_eq_true, if_false, Option.map_eq_some_iff, hdigits]
      constructor
      · rintro ⟨m, ⟨hall, hvalue⟩, rfl⟩
        exact ⟨⟨List.cons_ne_nil b s, hall, hvalue.symm⟩, m.toNat_lt⟩
      · rintro ⟨⟨-, hall, hvalue⟩, hn⟩
        have hword : (UInt64.ofNat n).toNat = n := UInt64.toNat_ofNat_of_lt' hn
        exact ⟨UInt64.ofNat n, ⟨hall, hword.trans hvalue.symm⟩, hword⟩

end Token

/-- The decimal form of a number is a numeral of it, by induction on its digits. -/
theorem isNumeral_ofNat (n : Nat) : IsNumeral n (Text.ofNat n) := by
  induction n using Nat.strongRecOn with
  | _ n ih =>
      have hdigit : ∀ d < 10,
          Token.isDigit (Text.digit d) = true ∧ (Text.digit d).toNat - 48 = d := by
        decide
      rw [Text.ofNat]
      split
      · next hn =>
        have hlast := hdigit n hn
        refine ⟨List.cons_ne_nil _ _, ?_, ?_⟩
        · rw [List.all_cons, hlast.1, List.all_nil, Bool.and_true]
        · simpa [Text.decimalValue] using hlast.2
      · next hn =>
        -- The last digit stands behind the numeral of the others.
        have hlast := hdigit (n % 10) (Nat.mod_lt n (by decide))
        rcases ih (n / 10) (by omega) with ⟨hne, hdigits, hvalue⟩
        refine ⟨fun hnil => hne (List.append_eq_nil_iff.mp hnil).1, ?_, ?_⟩
        · rw [List.all_append, hdigits, List.all_cons, hlast.1, List.all_nil]
          rfl
        · unfold Text.decimalValue at hvalue ⊢
          rw [List.foldl_append, hvalue, List.foldl_cons, List.foldl_nil, hlast.2]
          omega

end BitLogic
