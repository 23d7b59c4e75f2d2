import BitLogic.Diagnostic
import BitLogic.Proofs.Basics
import BitLogic.Proofs.Lines
import BitLogic.Proofs.Slices

/-!
# What a Diagnostic Quotes

Which part of a source is shown under a fault, for every source and every span whatever: one
that lies in the source, one that reaches beyond it, one that is before it or behind it
altogether, and one that runs backwards.

Moving a span into the source gives two offsets in order (`Span.clamp_within`), so the source
is divided into what is before the span, what is in it and what is behind it. From there on
nothing about the span is needed any more (`sections_of_split`). The line in front of it goes
back to the last line feed, and the line behind it up to the first, and both searches stay in
their own part of the source. The two offsets that they find are therefore in range and in
order, too. `cut?` is the same division made with offsets alone, in which each slice is tested
and may fail, and it never does (`cut?_eq`).

That whole lines are shown, and no others, is a matter of counting. A byte is on the line
whose number is the number of line feeds before it (`Text.lineOf`), and the lines of the text
that is shown are those from the line of the first offset to the line of the second.

## Main definitions

* `Text.lineOf`: The number of the line on which an offset lies.
* `Text.touched`: The lines of a text from that of one offset to that of another.
* `Diagnostic.cut?`: The sections of a source, cut out by tested slices.
* `Diagnostic.Sections.Quotes`: Sections are the middle of a source, in whole lines.
* `Diagnostic.header`, `Diagnostic.gutter`, `Diagnostic.rows`: A diagnostic, row by row.

## Theorems

* `Span.clamp_within`: A span that is moved into a source lies in it.
* `Text.touched_of_split`: The lines that a range touches.
* `Diagnostic.dropWhile_lineFeed`, `Diagnostic.lastLine_split`,
  `Diagnostic.firstLine_split`: The lines before and behind a place.
* `Diagnostic.dropReturn_split`: A line with a carriage return at its end, or none.
* `Diagnostic.exists_split`: A source is divided by a span.
* `Diagnostic.sections_of_split`: The sections of a source that is divided at the span.
* `Diagnostic.cut?_eq`: No slice is out of range.
* `Diagnostic.lineEnd_cases`: What is behind the line that is shown.
* `Diagnostic.sections_quotes`: The sections of a source are whole lines of it.
* `Diagnostic.ofFault_eq_rows`: A diagnostic is its rows.
* `Diagnostic.quotes_touched_lines`: What a diagnostic quotes.
-/

namespace BitLogic

/-- A span that is moved into a source lies in it. -/
theorem Span.clamp_within (s : Span) (n : Nat) : (s.clamp n).Within n := by
  unfold clamp between
  by_cases h : min (max s.stop 0) (n : Int) < min (max s.start 0) n
  · rw [if_pos h]
    simp only [Within]
    omega
  · rw [if_neg h]
    simp only [Within]
    omega

namespace Text

/-- The number of the line on which an offset lies, counted from zero. -/
def lineOf (t : Text) (n : Nat) : Nat := (t.take n).count lineFeed

/-- The lines of a text that a range of offsets touches, from the line of the one offset to
    the line of the other. -/
def touched (t : Text) (lo hi : Nat) : List Text :=
  ((lines t).drop (t.lineOf lo)).take (t.lineOf hi - t.lineOf lo + 1)

/-- The lines that a range touches, in a text that is divided at the two ends of the range and
    at the ends of the lines on which these are. -/
theorem touched_of_split (p before mid line q : Text) (hp : p = [] ∨ p.getLast? = some lineFeed)
    (hq : q = [] ∨ q.head? = some lineFeed) (hbefore : Unbroken before) (hline : Unbroken line) :
    touched (p ++ before ++ mid ++ line ++ q) (p ++ before).length (p ++ before ++ mid).length =
      lines (before ++ mid ++ line) := by
  -- All line feeds from the beginning of the first line on are in the range itself.
  have hlo : lineOf (p ++ before ++ mid ++ line ++ q) (p ++ before).length = p.count lineFeed := by
    rw [lineOf, List.append_assoc, List.append_assoc, List.take_left, List.count_append,
      List.count_eq_zero.mpr hbefore, Nat.add_zero]
  have hhi : lineOf (p ++ before ++ mid ++ line ++ q) (p ++ before ++ mid).length =
      p.count lineFeed + mid.count lineFeed := by
    rw [lineOf, List.append_assoc _ line, List.take_left, List.count_append, List.count_append,
      List.count_eq_zero.mpr hbefore, Nat.add_zero]
  have hcount : (before ++ mid ++ line).count lineFeed = mid.count lineFeed := by
    rw [List.count_append, List.count_append, List.count_eq_zero.mpr hbefore,
      List.count_eq_zero.mpr hline, Nat.zero_add, Nat.add_zero]
  rw [touched, hlo, hhi, Nat.add_sub_cancel_left, ← hcount,
    lines_window p (before ++ mid ++ line) q hp hq]
  simp only [List.append_assoc]

end Text

namespace Diagnostic

/-! ## Lines before and behind a span -/

/-- What follows the first line is nothing, or it begins with the line feed that ends it. -/
theorem dropWhile_lineFeed (t : Text) : t.dropWhile (· ≠ Text.lineFeed) = [] ∨
    (t.dropWhile (· ≠ Text.lineFeed)).head? = some Text.lineFeed := by
  have hstop := List.head?_dropWhile_not (fun b => decide (b ≠ Text.lineFeed)) t
  cases hrest : t.dropWhile (· ≠ Text.lineFeed) with
  | nil => exact Or.inl rfl
  | cons b rest =>
      rw [hrest] at hstop
      simp only [List.head?_cons, ne_eq, decide_not, Bool.not_eq_false',
        decide_eq_true_eq] at hstop
      exact Or.inr (congrArg some hstop)

/-- The last line of a text reaches back to a line feed or to the beginning. -/
theorem lastLine_split (t : Text) : ∃ p, t = p ++ lastLine t ∧
    (p = [] ∨ p.getLast? = some Text.lineFeed) ∧ Text.Unbroken (lastLine t) := by
  refine ⟨(t.reverse.dropWhile (· ≠ Text.lineFeed)).reverse, ?_, ?_, ?_⟩
  · rw [lastLine, ← List.reverse_append, List.takeWhile_append_dropWhile, List.reverse_reverse]
  · -- Seen from behind, the last line is the first.
    rw [List.reverse_eq_nil_iff, List.getLast?_reverse]
    exact dropWhile_lineFeed t.reverse
  · rw [Text.Unbroken, lastLine, List.mem_reverse]
    exact List.notMem_takeWhile_ne Text.lineFeed t.reverse

/-- The first line of a text goes up to a line feed or to the end. -/
theorem firstLine_split (t : Text) : ∃ q, t = firstLine t ++ q ∧
    (q = [] ∨ q.head? = some Text.lineFeed) ∧ Text.Unbroken (firstLine t) :=
  ⟨t.dropWhile (· ≠ Text.lineFeed), (List.takeWhile_append_dropWhile ..).symm,
    dropWhile_lineFeed t, List.notMem_takeWhile_ne Text.lineFeed t⟩

theorem dropReturn_split (t : Text) : ∃ cr, t = Text.dropReturn t ++ cr ∧
    (cr = [] ∨ cr = [Text.carriageReturn]) := by
  by_cases hlast : t.getLast? = some Text.carriageReturn
  · rcases List.getLast?_eq_some_iff.mp hlast with ⟨s, rfl⟩
    rw [Text.dropReturn_concat]
    exact ⟨_, rfl, Or.inr rfl⟩
  · rw [Text.dropReturn_of_ne t hlast]
    exact ⟨[], (List.append_nil t).symm, Or.inl rfl⟩

/-! ## Divided sources -/

/-- A source is divided by a span that has been moved into it. -/
theorem exists_split (src : Text) (span : Span) : ∃ head offending tail : Text,
    src = head ++ offending ++ tail ∧
      span.clamp src.length = ⟨head.length, head.length + offending.length⟩ := by
  have hwithin := span.clamp_within src.length
  generalize span.clamp src.length = s at hwithin
  rcases s with ⟨lo, hi⟩
  have hslice : ∃ offending, src.slice? lo hi = some offending := ⟨_, if_pos hwithin⟩
  rcases hslice with ⟨offending, hslice⟩
  rcases (Text.slice?_eq_some_iff _ _ _ _).mp hslice with ⟨head, tail, hsrc, hlo, hhi⟩
  exact ⟨head, offending, tail, hsrc, by rw [hlo, hhi]⟩

section

variable (src head offending tail : Text) (span : Span) (hsrc : src = head ++ offending ++ tail)
  (hspan : span.clamp src.length = ⟨head.length, head.length + offending.length⟩)

include hsrc hspan

/-- The sections of a divided source. -/
theorem sections_of_split : sections src span =
    ⟨lastLine head, offending, Text.dropReturn (firstLine tail)⟩ := by
  have hhi : ((head.length : Int) + offending.length).toNat = (head ++ offending).length := by
    rw [List.length_append]
    omega
  rw [sections, hspan]
  simp only [hhi, Int.toNat_natCast]
  have hhead : src.take head.length = head := by
    rw [hsrc, List.append_assoc, List.take_left]
  have hupto : src.take (head ++ offending).length = head ++ offending := by
    rw [hsrc, List.take_left]
  have htail : src.drop (head ++ offending).length = tail := by
    rw [hsrc, List.drop_left]
  rw [hhead, hupto, htail, List.drop_left]

end

/-! ## Tested slices -/

/-- The sections of a source, cut out of it by offsets. The line before the span begins
    behind the last line feed there, and the line behind it ends at the first, or at the end
    of the source. Each slice is tested, and there are no sections if one is out of range. -/
def cut? (src : Text) (span : Span) : Option Sections := do
  let s := span.clamp src.length
  let head ← src.slice? 0 s.start
  let lo : Int := head.length - head.reverse.idxOf Text.lineFeed
  let tail ← src.slice? s.stop src.length
  let hi : Int :=
    if Text.lineFeed ∈ tail then s.stop + tail.idxOf Text.lineFeed else src.length
  let before ← src.slice? lo s.start
  let offending ← src.slice? s.start s.stop
  let rest ← src.slice? s.stop hi
  return ⟨before, offending, (Text.dropSuffix? [Text.carriageReturn] rest).getD rest⟩

/-- No slice is out of range. -/
theorem cut?_eq (src : Text) (span : Span) : cut? src span = some (sections src span) := by
  rcases exists_split src span with ⟨head, offending, tail, hsrc, hspan⟩
  rcases lastLine_split head with ⟨p, hp, -, -⟩
  rcases firstLine_split tail with ⟨q, hq, -, -⟩
  have hplen := congrArg List.length hp
  have hqlen := congrArg List.length hq
  have hlen := congrArg List.length hsrc
  simp only [List.length_append] at hplen hqlen hlen
  have hslice : ∀ before s after : Text, src = before ++ s ++ after →
      ∀ lo hi : Int, lo = before.length → hi = before.length + s.length →
        src.slice? lo hi = some s := by
    intro before s after h lo hi hlo hhi
    exact (Text.slice?_eq_some_iff _ _ _ _).mpr ⟨before, after, h, hlo, hhi⟩
  -- The two parts that are searched, and where the searches end.
  have hhead := hslice [] head (offending ++ tail)
    (by rw [hsrc, List.nil_append, List.append_assoc]) 0 head.length rfl
    (by simp only [List.length_nil]; omega)
  have htail := hslice (head ++ offending) tail [] (by rw [hsrc, List.append_nil])
    (head.length + offending.length) src.length (by rw [List.length_append]; omega)
    (by rw [List.length_append]; omega)
  have hlo : (head.length : Int) - head.reverse.idxOf Text.lineFeed = p.length := by
    have hline : (lastLine head).length = head.reverse.idxOf Text.lineFeed := by
      rw [lastLine, List.length_reverse, List.length_takeWhile_ne]
    omega
  have hhi : (if Text.lineFeed ∈ tail then
      (head.length : Int) + offending.length + tail.idxOf Text.lineFeed else src.length) =
        head.length + offending.length + (firstLine tail).length := by
    have hline : (firstLine tail).length = tail.idxOf Text.lineFeed :=
      List.length_takeWhile_ne _ tail
    by_cases hmem : Text.lineFeed ∈ tail
    · rw [if_pos hmem, hline]
    · -- Without a line feed the first line is all there is.
      rw [if_neg hmem, hline, List.idxOf_eq_length hmem]
      omega
  -- The sections themselves.
  have hbefore := hslice p (lastLine head) (offending ++ tail)
    (by rw [← hp, hsrc, List.append_assoc]) p.length head.length rfl (by omega)
  have hoffending := hslice head offending tail hsrc head.length
    (head.length + offending.length) rfl rfl
  have hrest := hslice (head ++ offending) (firstLine tail) q
    (by rw [hsrc, List.append_assoc _ (firstLine tail), ← hq])
    (head.length + offending.length)
    (head.length + offending.length + (firstLine tail).length)
    (by rw [List.length_append]; omega) (by rw [List.length_append]; omega)
  rw [sections_of_split src head offending tail span hsrc hspan, cut?, hspan]
  simp only [hhead, htail, hlo, hhi, hbefore, hoffending, hrest, Option.bind_eq_bind,
    Option.bind_some]
  rfl

/-! ## Whole lines -/

/-- How a source is made up around a span: whole lines, the line before the span, the text
    in it, the line behind it without its line end, and the rest of the source from that line
    end on. -/
structure Sections.Quotes (s : Sections) (src : Text) (span : Span) (p q : Text) : Prop where
  source : src = p ++ s.before ++ s.offending ++ s.after ++ q
  offending : src.slice? (span.clamp src.length).start (span.clamp src.length).stop =
    some s.offending
  above : p = [] ∨ p.getLast? = some Text.lineFeed
  before : Text.Unbroken s.before
  after : Text.Unbroken s.after
  below : q = [] ∨ q = [Text.carriageReturn] ∨ q.head? = some Text.lineFeed ∨
    [Text.carriageReturn, Text.lineFeed] <+: q

/-- What is behind the line that is shown, from its line end on. -/
theorem lineEnd_cases (cr q : Text) (hcr : cr = [] ∨ cr = [Text.carriageReturn])
    (hq : q = [] ∨ q.head? = some Text.lineFeed) :
    cr ++ q = [] ∨ cr ++ q = [Text.carriageReturn] ∨ (cr ++ q).head? = some Text.lineFeed ∨
      [Text.carriageReturn, Text.lineFeed] <+: cr ++ q := by
  rcases hcr with rfl | rfl
  · rcases hq with rfl | hq
    · exact Or.inl rfl
    · exact Or.inr (Or.inr (Or.inl hq))
  · rcases hq with rfl | hq
    · exact Or.inr (Or.inl rfl)
    · -- Behind the carriage return there is a line feed, so it belongs to the line end.
      rcases List.head?_eq_some_iff.mp hq with ⟨rest, rfl⟩
      exact Or.inr (Or.inr (Or.inr ⟨rest, rfl⟩))

/-- The sections of a source are whole lines around the span. With the carriage return that
    is left out at the end, they are the lines that the span touches. -/
theorem sections_quotes (src : Text) (span : Span) : ∃ p q cr : Text,
    (sections src span).Quotes src span p (cr ++ q) ∧
    (cr = [] ∨ cr = [Text.carriageReturn]) ∧
    Text.lines ((sections src span).before ++ (sections src span).offending ++
      (sections src span).after ++ cr) =
        src.touched (span.clamp src.length).start.toNat (span.clamp src.length).stop.toNat := by
  rcases exists_split src span with ⟨head, offending, tail, hsrc, hspan⟩
  rcases lastLine_split head with ⟨p, hp, hpend, hbefore⟩
  rcases firstLine_split tail with ⟨q, hq, hqstart, hline⟩
  rcases dropReturn_split (firstLine tail) with ⟨cr, hafter, hcr⟩
  rw [sections_of_split src head offending tail span hsrc hspan]
  generalize lastLine head = before at *
  generalize Text.dropReturn (firstLine tail) = after at *
  generalize firstLine tail = line at *
  -- From here on there are only the parts, with no line feed in `before` and in `line`.
  have hwhole : src = p ++ before ++ offending ++ line ++ q := by
    rw [hsrc, hp, hq, List.append_assoc _ line]
  refine ⟨p, q, cr, ⟨?_, ?_, hpend, hbefore, ?_, lineEnd_cases cr q hcr hqstart⟩, hcr, ?_⟩
  · rw [hwhole, hafter]
    simp only [List.append_assoc]
  · rw [hspan, hsrc]
    exact Text.slice?_middle head offending tail
  · rw [hafter, Text.unbroken_append] at hline
    exact hline.1
  · have htouched := Text.touched_of_split p before offending line q hpend hqstart hbefore hline
    rw [← hwhole, ← hp, List.length_append] at htouched
    rw [List.append_assoc, ← hafter, ← htouched, hspan]
    rfl

/-! ## Rows of a diagnostic -/

/-- The bar at the left of every row but the first. -/
def gutter (st : Style) : Text := Text.ofString " " ++ st.paint .blue (Text.ofString "|")

/-- The first row, with the wording of the fault and its span. -/
def header (st : Style) (f : Fault) : Text :=
  st.paint .blue (Text.ofString "-->") ++ Text.ofString " Error: " ++ f.message ++
    Text.ofString " (at " ++ f.span.text ++ Text.ofString ")"

/-- The rows of a diagnostic. The third quotes the source and the fourth marks it. -/
def rows (st : Style) (f : Fault) (s : Sections) : List Text :=
  [header st f,
    gutter st,
    gutter st ++ Text.ofString " " ++ s.before ++ st.paint .red s.offending ++ s.after,
    gutter st ++ Text.ofString " " ++ List.replicate (Width.ofText s.before) Text.space ++
      st.paint .blue (List.replicate (max 1 (Width.ofText s.offending)) 94),
    gutter st]

/-- A diagnostic is its rows, one below the other. -/
theorem ofFault_eq_rows (st : Style) (src : Text) (f : Fault) :
    ofFault st src f = Text.ofLines (rows st f (sections src f.span)) := by
  have hfeed : Text.ofString "\n" = [Text.lineFeed] := rfl
  have hclose : Text.ofString ")\n" = Text.ofString ")" ++ [Text.lineFeed] := rfl
  unfold ofFault rows header gutter
  rw [hfeed, hclose]
  generalize sections src f.span = s
  simp only [Text.ofLines, List.flatMap_cons, List.flatMap_nil, List.append_assoc,
    List.append_nil]

/-- What a diagnostic quotes, for every source and every span. No slice is out of range. The
    sections are parts of the source that follow each other, the one in the middle being the
    span as it was moved into the source. They begin behind a line feed or with the source,
    and end before a line end or with the source, so they are the lines that the span touches,
    and they are whole. All that is printed of the source are these sections. -/
theorem quotes_touched_lines (src : Text) (span : Span) :
    ∃ (s : Sections) (p q cr : Text), cut? src span = some s ∧ s.Quotes src span p (cr ++ q) ∧
      (cr = [] ∨ cr = [Text.carriageReturn]) ∧
      Text.lines (s.before ++ s.offending ++ s.after ++ cr) =
        src.touched (span.clamp src.length).start.toNat (span.clamp src.length).stop.toNat ∧
      ∀ (st : Style) (e : Failure) (f : Fault), e.fault? = some f → f.span = span →
        ofFailure st src e = Text.ofLines (rows st f s) := by
  rcases sections_quotes src span with ⟨p, q, cr, hquotes, hcr, hlines⟩
  refine ⟨sections src span, p, q, cr, cut?_eq src span, hquotes, hcr, hlines, ?_⟩
  -- The rows are made from the sections and from nothing else of the source.
  intro st e f he hspan
  rw [ofFailure, he, ← hspan]
  exact ofFault_eq_rows st src f

end Diagnostic

end BitLogic
