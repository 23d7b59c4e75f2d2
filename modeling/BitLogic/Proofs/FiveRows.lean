import BitLogic.Proofs.Columns
import BitLogic.Proofs.Quotation
import BitLogic.Proofs.Surroundings

/-!
# When a Diagnostic Has Five Rows

A diagnostic is meant to be five lines: the header, an empty row, the line of the source that
the fault is on, the markers under it, and an empty row again. Of every source that fails it
is known here when its diagnostic is that.

The header is one line, since no wording is broken, and so are the empty rows and the markers.
The row that quotes the source is as many lines as the span touches, because a line feed in
the marked text is printed like everything else, and only the first of these lines has a bar
before it. Hence there are five lines if and only if the marked text is unbroken, which it
always is unless it is a call that was written over several lines.

Markers are moved to the right by as many spaces as the text before them has columns. That
text is ASCII, so these are the bytes that take a column. A tab, a form feed or a carriage
return is printed and not counted, and then the markers stand further to the left than the
text that they mark.

## Main definitions

* `Diagnostic.layout`: A diagnostic, from the lines that are quoted and the markers.
* `Diagnostic.quoteRow`, `Diagnostic.marks`: What is quoted, and how many markers there are.
* `Diagnostic.fiveRows`: The diagnostic that it is meant to be.

## Theorems

* `Diagnostic.unbroken_header`: The header is one line.
* `Diagnostic.ofFault_none`, `Diagnostic.lines_ofFault`: A diagnostic and its lines.
* `Diagnostic.length_lines_quoteRow`: How many of them quote the source.
* `Diagnostic.lines_eq_fiveRows_iff`: When they are the five rows.
* `five_rows_iff`: The diagnostic of a source that fails.
* `five_rows_iff_tabbed`: A call with a tab in it.
* `not_five_rows_brokenCall`: A call over two lines.
-/

namespace BitLogic

open Text (Unbroken)

namespace Diagnostic

/-- A header, an empty row, rows that quote the source, a row in which markers stand to the
    right of so many columns, and an empty row again. -/
def layout (f : Fault) (quoted : List Text) (shift marks : Nat) : List Text :=
  [header .none f, Text.ofString " |"] ++ quoted ++
    [Text.ofString " | " ++ List.replicate shift Text.space ++ List.replicate marks 94,
      Text.ofString " |"]

/-- The row that quotes a source. -/
def quoteRow (s : Sections) : Text :=
  Text.ofString " | " ++ s.before ++ s.offending ++ s.after

/-- The number of markers: one for each column of the marked text, and at least one. -/
def marks (s : Sections) : Nat := max 1 (Width.ofText s.offending)

/-- The five rows that a diagnostic is meant to be. Only one quotes the source, and the
    markers begin under the first byte of what they mark. -/
def fiveRows (f : Fault) (s : Sections) : List Text :=
  layout f [quoteRow s] s.before.length (marks s)

theorem unbroken_header (f : Fault) (h : Unbroken f.message) : Unbroken (header .none f) := by
  have hheader : header .none f = Text.ofString "-->" ++ Text.ofString " Error: " ++ f.message ++
      Text.ofString " (at " ++ f.span.text ++ Text.ofString ")" := rfl
  simp +decide [hheader, h]

/-- A diagnostic without colours. -/
theorem ofFault_none (src : Text) (f : Fault) (s : Sections) (hs : sections src f.span = s) :
    ofFault .none src f =
      Text.ofLines (layout f [quoteRow s] (Width.ofText s.before) (marks s)) := by
  rw [ofFault_eq_rows, hs]
  rfl

/-- The lines of a diagnostic without colours: one for each row, but for the row that quotes
    the source, which is as many as there are in it. -/
theorem lines_ofFault (src : Text) (f : Fault) (s : Sections) (hs : sections src f.span = s)
    (h : Unbroken f.message) :
    Text.lines (ofFault .none src f) =
      layout f (Text.lines (quoteRow s)) (Width.ofText s.before) (marks s) ++ [[]] := by
  have hmarks : Unbroken (Text.ofString " | " ++
      List.replicate (Width.ofText s.before) Text.space ++ List.replicate (marks s) 94) := by
    simp +decide [Text.unbroken_replicate]
  rw [ofFault_none src f s hs, layout, layout]
  generalize Text.ofString " | " ++ List.replicate _ _ ++ List.replicate _ _ = under at hmarks ⊢
  have habove : ∀ l ∈ [header .none f, Text.ofString " |"], Unbroken l := by
    simp +decide [unbroken_header f h]
  have hbelow : ∀ l ∈ [under, Text.ofString " |"], Unbroken l := by
    simp +decide [hmarks]
  -- The row that quotes the source is not known to be unbroken, so it is only known to end
  -- where a line does.
  have hquote : Text.ofLines [quoteRow s] = quoteRow s ++ [Text.lineFeed] := List.append_nil _
  have hlast := Text.lines_ofLines [under, Text.ofString " |"] [] hbelow
  rw [List.append_nil] at hlast
  rw [Text.ofLines_append, Text.ofLines_append, List.append_assoc, Text.lines_ofLines _ _ habove,
    hquote, List.append_assoc, List.singleton_append, Text.lines_break, hlast, List.append_assoc,
    List.append_assoc]
  rfl

/-- The row that quotes a source has one line more than there are line feeds in the marked
    text. -/
theorem length_lines_quoteRow (src : Text) (span : Span) :
    (Text.lines (quoteRow (sections src span))).length =
      (sections src span).offending.count Text.lineFeed + 1 := by
  rcases sections_quotes src span with ⟨p, q, cr, hquotes, -, -⟩
  -- The line before the marked text and the one behind it are unbroken, and so is the bar.
  have hbar : (Text.ofString " | ").count Text.lineFeed = 0 := by decide
  rw [Text.length_lines, quoteRow, List.count_append, List.count_append, List.count_append, hbar,
    List.count_eq_zero.mpr hquotes.before, List.count_eq_zero.mpr hquotes.after]
  omega

/-- The lines of a diagnostic are the five rows if and only if the marked text is unbroken and
    every byte before it takes a column. -/
theorem lines_eq_fiveRows_iff (src : Text) (f : Fault) (s : Sections)
    (hs : sections src f.span = s) (hmessage : Unbroken f.message)
    (hascii : ∀ b ∈ s.before, b.toNat < 128) :
    Text.lines (ofFault .none src f) = fiveRows f s ++ [[]] ↔
      Unbroken s.offending ∧ ∀ b ∈ s.before, Text.takesColumn b = true := by
  have hcount := length_lines_quoteRow src f.span
  rw [hs] at hcount
  rw [lines_ofFault src f s hs hmessage, List.append_cancel_right_eq, fiveRows, layout, layout,
    ← List.countP_eq_length, ← Width.ofText_ascii s.before hascii, Unbroken,
    ← List.count_eq_zero]
  constructor
  · intro heq
    -- There are as many lines as rows, so only one of them quotes the source.
    have hlen := congrArg List.length heq
    simp only [List.length_append, List.length_cons, List.length_nil] at hlen
    refine ⟨by omega, ?_⟩
    -- Only the spaces in front of the markers can still be different.
    rcases List.length_eq_one_iff.mp (by omega : (Text.lines (quoteRow s)).length = 1) with
      ⟨row, hrow⟩
    rw [hrow] at heq
    simp only [List.cons_append, List.nil_append, List.cons.injEq, List.append_cancel_right_eq,
      List.append_cancel_left_eq, List.replicate_inj, true_and, and_true] at heq
    exact heq.2.1
  · rintro ⟨hunbroken, hwidth⟩
    have hfeed : (quoteRow s).count Text.lineFeed = 0 := by
      rw [Text.length_lines] at hcount
      omega
    rw [Text.lines_of_unbroken _ (List.count_eq_zero.mp hfeed), hwidth]

/-- Behind a tab the marker stands one byte too far to the left. -/
example : Text.lines (ofFault .none (Text.ofString "1\t2 A") ⟨.badBit, ⟨2, 3⟩⟩) =
    [Text.ofString "--> Error: invalid bit, must be `0` or `1` (at 2..3)",
      Text.ofString " |",
      Text.ofString " | 1\t2 A",
      Text.ofString " |  ^",
      Text.ofString " |",
      []] := by
  decide +kernel

end Diagnostic

open Diagnostic (ofFault sections layout quoteRow marks fiveRows)

/-- The diagnostic of every source that fails. Its lines are a header, an empty row, the text
    that is quoted, markers and an empty row, where the markers are moved to the right by the
    number of bytes before the marked text that take a column. So it is the five rows it is
    meant to be if and only if all those bytes do and the marked text is unbroken, and if that
    is broken it is a call. -/
theorem five_rows_iff (src : Text) (stop : Stop)
    (h : (Interpreter.run src).value = .error stop) :
    ∃ (f : Fault) (s : Diagnostic.Sections), stop = .fault f ∧ sections src f.span = s ∧
      Text.lines (ofFault .none src f) =
        layout f (Text.lines (quoteRow s)) (s.before.countP Text.takesColumn) (marks s) ++ [[]] ∧
      (Text.lines (quoteRow s)).length = s.offending.count Text.lineFeed + 1 ∧
      (Text.lines (ofFault .none src f) = fiveRows f s ++ [[]] ↔
        Unbroken s.offending ∧ ∀ b ∈ s.before, Text.takesColumn b = true) ∧
      (¬ Unbroken s.offending → f.cause.isAboutCall = true) := by
  rcases located_of_run src stop h with ⟨f, hstop, hlocated⟩
  have hmessage := unbroken_message_of_located src f hlocated
  -- The bytes before the fault are those of a source up to it, which are ASCII.
  have hascii : ∀ b ∈ (sections src f.span).before, b.toNat < 128 := fun b hb =>
    (toNat_of_not_stray b (not_stray_before_fault src f hlocated b hb)).1
  have hlines := Diagnostic.lines_ofFault src f _ rfl hmessage
  rw [Width.ofText_ascii _ hascii] at hlines
  refine ⟨f, sections src f.span, hstop, rfl, hlines,
    Diagnostic.length_lines_quoteRow src f.span,
    Diagnostic.lines_eq_fiveRows_iff src f _ rfl hmessage hascii, fun hbroken => ?_⟩
  -- A line feed is a blank, and only a call can have one in it.
  by_contra hcall
  rw [Bool.not_eq_true] at hcall
  refine hbroken fun hfeed => ?_
  exact absurd (spaceless_of_located src f hlocated hcall _ hfeed) (by decide)

/-- A call of a function that there is not, with a tab in it and a line end behind it. -/
def tabbed : Text := Text.ofString "1 1  maj(A,\tA)\r\n"

theorem five_rows_iff_tabbed :
    (Interpreter.run tabbed).value =
      .error (.fault ⟨.undefinedFunction (Text.ofString "maj"), ⟨5, 14⟩⟩) ∧
    Text.lines (ofFault .none tabbed ⟨.undefinedFunction (Text.ofString "maj"), ⟨5, 14⟩⟩) =
      [Text.ofString "--> Error: cannot call undefined function `maj` (at 5..14)",
        Text.ofString " |",
        Text.ofString " | 1 1  maj(A,\tA)",
        Text.ofString " |      ^^^^^^^^",
        Text.ofString " |",
        []] := by
  have hrun : (Interpreter.run tabbed).value =
      .error (.fault ⟨.undefinedFunction (Text.ofString "maj"), ⟨5, 14⟩⟩) := by
    decide +kernel
  refine ⟨hrun, ?_⟩
  rcases five_rows_iff tabbed _ hrun with ⟨f, s, hf, rfl, -, -, hiff, -⟩
  rw [← Stop.fault.inj hf] at hiff
  exact (hiff.mpr (by decide +kernel)).trans (by decide +kernel)

/-- A call that was written over two lines. -/
def brokenCall : Text := Text.ofString "0 f(\n)"

/-- The diagnostic of a call over two lines has six lines, and the fourth has no bar. -/
theorem not_five_rows_brokenCall :
    (Interpreter.run brokenCall).value =
      .error (.fault ⟨.undefinedFunction (Text.ofString "f"), ⟨2, 6⟩⟩) ∧
    Text.lines (ofFault .none brokenCall ⟨.undefinedFunction (Text.ofString "f"), ⟨2, 6⟩⟩) =
      [Text.ofString "--> Error: cannot call undefined function `f` (at 2..6)",
        Text.ofString " |",
        Text.ofString " | 0 f(",
        Text.ofString ")",
        Text.ofString " |   ^^^",
        Text.ofString " |",
        []] := by
  decide +kernel

end BitLogic
