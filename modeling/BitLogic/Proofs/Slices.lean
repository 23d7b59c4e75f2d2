import BitLogic.Span

/-!
# Parts of a Text

What a slice is, said without offsets: a text is made of three parts, and the middle one
is the slice between the ends of its neighbours (`slice?_eq_some_iff`). A span can be cut
out of a text if and only if it lies within it, and what is appended to a text leaves the
slices of it alone.

The other way to name a part is from the end of a text, by a class of bytes. What is
dropped there and what is left make up the text, so dropping can as well be done by
counting.

## Main definitions

* `Span.Within`: A span lies in a text of a given length.

## Theorems

* `Span.Within.mono`: A span in a text lies in every longer one.
* `Text.slice?_append`: Appending to a text keeps its slices.
* `Text.slice?_middle`: The slice between two parts of a text.
* `Text.slice?_eq_some_iff`: A slice is a part of the text.
* `Text.within_of_slice?`: What can be cut out lies within.
* `Text.dropRightWhile_append`: What is dropped at the end and what is left.
* `Text.take_eq_dropRightWhile`: Dropping at the end by counting.
-/

namespace BitLogic

namespace Span

/-- The span lies in a text of `n` bytes. -/
def Within (s : Span) (n : Nat) : Prop := 0 ≤ s.start ∧ s.start ≤ s.stop ∧ s.stop ≤ n

instance (s : Span) (n : Nat) : Decidable (s.Within n) := inferInstanceAs (Decidable (_ ∧ _ ∧ _))

theorem Within.mono {s : Span} {m n : Nat} (h : s.Within m) (hle : m ≤ n) : s.Within n := by
  rcases h with ⟨h0, h1, h2⟩
  exact ⟨h0, h1, by omega⟩

end Span

namespace Text

theorem slice?_append (t more : Text) (lo hi : Int) (h0 : 0 ≤ lo) (h1 : lo ≤ hi)
    (h2 : hi ≤ t.length) : slice? (t ++ more) lo hi = slice? t lo hi := by
  have h2' : hi ≤ (t ++ more).length := by
    rw [List.length_append]
    omega
  unfold slice?
  rw [if_pos ⟨h0, h1, h2'⟩, if_pos ⟨h0, h1, h2⟩]
  -- The slice ends before the appended part begins.
  rw [List.drop_append_of_le_length (by omega), List.take_append_of_le_length]
  rw [List.length_drop]
  omega

/-- A text between two others is the slice from the end of the one to the start of the
    other. -/
theorem slice?_middle (before t after : Text) :
    slice? (before ++ t ++ after) before.length (before.length + t.length) = some t := by
  have hlen : (before.length + t.length : Int) - before.length = t.length := by omega
  unfold slice?
  rw [if_pos (by simp only [List.length_append]; omega), hlen, Int.toNat_natCast,
    Int.toNat_natCast, List.append_assoc, List.drop_left, List.take_left]

/-- A slice is a part of the text, and its offsets are those of that part. -/
theorem slice?_eq_some_iff (t s : Text) (lo hi : Int) : t.slice? lo hi = some s ↔
    ∃ before after, t = before ++ s ++ after ∧ lo = before.length ∧
      hi = before.length + s.length := by
  constructor
  · intro h
    unfold slice? at h
    rw [Option.ite_none_right_eq_some, Option.some.injEq] at h
    rcases h with ⟨⟨h0, h1, h2⟩, hs⟩
    -- The offsets are in range, so taking and dropping count the bytes they name.
    have hlen : s.length = (hi - lo).toNat := by
      rw [← hs, List.length_take, List.length_drop]
      omega
    refine ⟨t.take lo.toNat, (t.drop lo.toNat).drop (hi - lo).toNat, ?_, ?_, ?_⟩
    · rw [← hs, List.append_assoc, List.take_append_drop, List.take_append_drop]
    · rw [List.length_take]
      omega
    · rw [List.length_take]
      omega
  · rintro ⟨before, after, ht, hlo, hhi⟩
    rw [ht, hlo, hhi]
    exact slice?_middle before s after

/-- A span that can be cut out of a text lies within it. -/
theorem within_of_slice? (src s : Text) (span : Span)
    (h : src.slice? span.start span.stop = some s) : span.Within src.length := by
  unfold slice? at h
  rw [Option.ite_none_right_eq_some] at h
  exact h.1

/-! ## From the end -/

/-- What is left and what is dropped at the end make up the text. -/
theorem dropRightWhile_append (p : UInt8 → Bool) (t : Text) :
    dropRightWhile p t ++ (t.reverse.takeWhile p).reverse = t := by
  rw [dropRightWhile, ← List.reverse_append, List.takeWhile_append_dropWhile,
    List.reverse_reverse]

/-- Dropping bytes at the end by counting them. -/
theorem take_eq_dropRightWhile (p : UInt8 → Bool) (t : Text) :
    t.take (t.length - (t.reverse.takeWhile p).length) = dropRightWhile p t := by
  have hsplit := dropRightWhile_append p t
  have hlen : t.length - (t.reverse.takeWhile p).length = (dropRightWhile p t).length := by
    have hsum := congrArg List.length hsplit
    rw [List.length_append, List.length_reverse] at hsum
    omega
  calc t.take (t.length - (t.reverse.takeWhile p).length)
      = (dropRightWhile p t ++ (t.reverse.takeWhile p).reverse).take
          (dropRightWhile p t).length := by rw [hlen, hsplit]
    _ = dropRightWhile p t := List.take_left

end Text

end BitLogic
