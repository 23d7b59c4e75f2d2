import BitLogic.Proofs.FiveRows

/-!
# What Colouring Changes

On a terminal without colours, asking for them should make no difference. It makes none for
the arrow, the bars and the markers. But a text that is painted is laid out first, and the
text at a fault is painted as it stands in the source, while the markers under it are counted
before.

Laying out leaves a text alone if and only if there is nothing in it to be laid out: no tab,
no carriage return before a line feed, and no two lines of different width (`Steady`). In the
one direction each of the three steps does nothing to such a text. In the other, the steps are
told apart by what they take away. Only the first takes away tabs and only the second carriage
returns, and the third adds spaces and takes away nothing. So if all three together give back
the text, there were no tabs, hence no carriage return was dropped, hence no space was added.

A token has no blanks in it and is steady. A call may have any, and if it is not steady its
diagnostics with colours and without differ.

## Main definitions

* `Paint.Steady`: A text in which there is nothing to lay out.
* `Paint.widest`: The width that lines are filled up to.
* `Diagnostic.Style.plain`: Colours where there are none.

## Theorems

* `Paint.tab_notMem_expandTabs`, `Paint.expandTabs_eq_self`: Tabs are taken away, and
  nothing else.
* `Paint.joinLineEnds_cons`, `Paint.joinLineEnds_sublist`, `Paint.length_joinLineEnds`:
  Carriage returns are dropped, and nothing else.
* `Paint.joinLineEnds_eq_self_iff`: When no carriage return is dropped.
* `Paint.widest_le_iff`, `Paint.fillTo_eq_self_iff`, `Paint.unbroken_fillTo`: Filling up
  a line.
* `Paint.map_fillTo_eq_self_iff`: When no line is filled up.
* `Paint.count_joinWith_fillTo`: Filling up adds nothing but spaces.
* `Paint.apply_plain`, `Paint.count_apply_plain`, `Paint.lines_apply_plain`: A text that
  is laid out.
* `Paint.apply_plain_eq_self_iff`: When a text is left alone.
* `Paint.Steady.of_spaceless`: A text without blanks is steady.
* `Diagnostic.Style.paint_plain`, `Diagnostic.Style.paint_plain_spaceless`: What is
  painted on a terminal without colours.
* `Diagnostic.ofFault_plain`: A diagnostic with colours on a terminal without.
* `Diagnostic.ofFault_plain_eq_iff`, `colouring_adds_only_colour_iff`: When it is the
  diagnostic without colours.
* `colouring_adds_only_colour_iff_evenCall`: A call over two lines that are equally
  wide.
* `colouring_expands_tabCall`: A call with a tab in it.
-/

namespace BitLogic

open Text (Unbroken lineFeed carriageReturn joinWith lines)

namespace Paint

/-- There is nothing to be laid out in the text: no tab, no carriage return before a line
    feed, and no line that is less wide than another. -/
structure Steady (t : Text) : Prop where
  tabless : 9 ∉ t
  endings : ¬ [carriageReturn, lineFeed] <:+: t
  even : ∀ a ∈ lines t, ∀ b ∈ lines t, Screen.width a = Screen.width b

/-! ## Tabs -/

theorem tab_notMem_expandTabs (t : Text) : 9 ∉ expandTabs t := by
  intro hmem
  rcases List.mem_flatMap.mp hmem with ⟨b, -, hb⟩
  by_cases htab : b = 9
  · rw [if_pos htab] at hb
    exact absurd (List.eq_of_mem_replicate hb) (by decide)
  · rw [if_neg htab, List.mem_singleton] at hb
    exact htab hb.symm

theorem expandTabs_eq_self (t : Text) (h : 9 ∉ t) : expandTabs t = t := by
  induction t with
  | nil => rfl
  | cons b t ih =>
      rw [List.mem_cons, not_or] at h
      rw [expandTabs, List.flatMap_cons, if_neg fun heq => h.1 heq.symm, ← expandTabs, ih h.2,
        List.singleton_append]

/-! ## Line ends -/

theorem joinLineEnds_cons (b c : UInt8) (t : Text) : joinLineEnds (b :: c :: t) =
    if b = carriageReturn ∧ c = lineFeed then joinLineEnds (c :: t)
    else b :: joinLineEnds (c :: t) := by
  rw [joinLineEnds]

/-- What is left is what there was, with some bytes dropped. -/
theorem joinLineEnds_sublist (t : Text) : List.Sublist (joinLineEnds t) t := by
  induction t using joinLineEnds.induct with
  | case1 => exact List.Sublist.refl _
  | case2 b => exact List.Sublist.refl _
  | case3 b c t h ih =>
      rw [joinLineEnds_cons, if_pos h]
      exact ih.cons b
  | case4 b c t h ih =>
      rw [joinLineEnds_cons, if_neg h]
      exact ih.cons_cons b

/-- Only carriage returns are dropped. -/
theorem length_joinLineEnds (t : Text) :
    (joinLineEnds t).length + t.count carriageReturn =
      t.length + (joinLineEnds t).count carriageReturn := by
  induction t using joinLineEnds.induct with
  | case1 => rfl
  | case2 b => rfl
  | case3 b c t h ih =>
      rw [joinLineEnds_cons, if_pos h, h.1, List.count_cons_self, List.length_cons]
      omega
  | case4 b c t h ih =>
      rw [joinLineEnds_cons, if_neg h]
      simp only [List.length_cons, List.count_cons] at ih ⊢
      omega

/-- No carriage return is dropped if and only if none stands before a line feed. -/
theorem joinLineEnds_eq_self_iff (t : Text) :
    joinLineEnds t = t ↔ ¬ [carriageReturn, lineFeed] <:+: t := by
  induction t using joinLineEnds.induct with
  | case1 => exact iff_of_true rfl (by decide)
  | case2 b =>
      refine iff_of_true rfl fun hpair => ?_
      have hlen := hpair.length_le
      simp only [List.length_cons, List.length_nil] at hlen
      omega
  | case3 b c t h ih =>
      rw [joinLineEnds_cons, if_pos h]
      -- What is left is shorter than what there was.
      refine iff_of_false (fun heq => ?_) (not_not_intro ?_)
      · have hlen := (joinLineEnds_sublist (c :: t)).length_le
        rw [heq, List.length_cons] at hlen
        omega
      · rw [h.1, h.2]
        exact (List.prefix_append [carriageReturn, lineFeed] t).isInfix
  | case4 b c t h ih =>
      -- The pair is not at the front, so it is further on if anywhere.
      have hfront : ¬ [carriageReturn, lineFeed] <+: b :: c :: t := by
        rw [List.cons_prefix_cons, List.cons_prefix_cons]
        exact fun hfront => h ⟨hfront.1.symm, hfront.2.1.symm⟩
      have hpair : [carriageReturn, lineFeed] <:+: b :: c :: t ↔
          [carriageReturn, lineFeed] <:+: c :: t :=
        List.infix_cons_iff.trans (or_iff_right hfront)
      rw [joinLineEnds_cons, if_neg h, List.cons_inj_right, ih, hpair]

/-! ## Widths -/

/-- The width that lines are filled up to. -/
def widest (ls : List Text) : Nat := (ls.map Screen.width).foldl max 0

theorem widest_le_iff (ls : List Text) (k : Nat) :
    widest ls ≤ k ↔ ∀ l ∈ ls, Screen.width l ≤ k := by
  rw [widest, List.foldl_max_le_iff, List.forall_mem_map, and_iff_right (Nat.zero_le k)]

@[simp]
theorem fillTo_eq_self_iff (n : Nat) (l : Text) : fillTo n l = l ↔ n ≤ Screen.width l := by
  rw [fillTo, List.append_right_eq_self, List.replicate_eq_nil_iff, Nat.sub_eq_zero_iff_le]

/-- No line is filled up if and only if all are equally wide. -/
theorem map_fillTo_eq_self_iff (ls : List Text) : ls.map (fillTo (widest ls)) = ls ↔
    ∀ a ∈ ls, ∀ b ∈ ls, Screen.width a = Screen.width b := by
  -- A line is as wide as the widest if it is as wide as each of the others.
  have hpoint : ls.map (fillTo (widest ls)) = ls ↔
      ∀ a ∈ ls, ∀ b ∈ ls, Screen.width b ≤ Screen.width a := by
    conv_lhs => rhs; rw [← List.map_id ls]
    simp only [List.map_inj_left, id_eq, fillTo_eq_self_iff, widest_le_iff]
  rw [hpoint]
  exact ⟨fun h a ha b hb => Nat.le_antisymm (h b hb a ha) (h a ha b hb),
    fun h a ha b hb => Nat.le_of_eq (h b hb a ha)⟩

theorem unbroken_fillTo (n : Nat) (l : Text) (h : Unbroken l) : Unbroken (fillTo n l) := by
  simp +decide [fillTo, h, Text.unbroken_replicate]

/-- Filling up lines adds nothing but spaces. -/
theorem count_joinWith_fillTo (n : Nat) (b : UInt8) (hb : b ≠ Text.space) (ls : List Text) :
    (joinWith [lineFeed] (ls.map (fillTo n))).count b = (joinWith [lineFeed] ls).count b := by
  have hfill : ∀ l, (fillTo n l).count b = l.count b := by
    intro l
    rw [fillTo, List.count_append, List.count_replicate, if_neg (by simpa using hb.symm),
      Nat.add_zero]
  induction ls with
  | nil => rfl
  | cons l ls ih =>
      cases ls with
      | nil => exact hfill l
      | cons m ms =>
          simp only [List.map_cons, Text.joinWith_cons, List.count_append, hfill] at ih ⊢
          rw [ih]

/-! ## All three -/

/-- A text as it is laid out where there are no colours. -/
theorem apply_plain (c : Colour) (t : Text) :
    apply .plain c t = joinWith [lineFeed] ((lines (joinLineEnds (expandTabs t))).map
      (fillTo (widest (lines (joinLineEnds (expandTabs t)))))) := by
  have hline : line .plain c = id := rfl
  rw [apply, hline, List.map_id]
  rfl

/-- Apart from spaces, laying out a text only takes away. -/
theorem count_apply_plain (c : Colour) (t : Text) (b : UInt8) (hb : b ≠ Text.space) :
    (apply .plain c t).count b = (joinLineEnds (expandTabs t)).count b := by
  rw [apply_plain, count_joinWith_fillTo _ b hb, Text.joinWith_lines]

theorem lines_apply_plain (c : Colour) (t : Text) :
    lines (apply .plain c t) = (lines (joinLineEnds (expandTabs t))).map
      (fillTo (widest (lines (joinLineEnds (expandTabs t))))) := by
  rw [apply_plain]
  refine Text.lines_joinWith _ (mt List.map_eq_nil_iff.mp (Text.lines_ne_nil _)) ?_
  rw [List.forall_mem_map]
  exact fun l hl => unbroken_fillTo _ l (Text.unbroken_of_mem_lines _ l hl)

/-- A text is left alone if and only if there is nothing in it to be laid out. -/
theorem apply_plain_eq_self_iff (c : Colour) (t : Text) : apply .plain c t = t ↔ Steady t := by
  constructor
  · intro h
    -- No tab is left of a text, and all of this one is.
    have htab : 9 ∉ t := by
      have hcount := count_apply_plain c t 9 (by decide)
      have hnone : 9 ∉ joinLineEnds (expandTabs t) := fun hmem =>
        tab_notMem_expandTabs t ((joinLineEnds_sublist _).subset hmem)
      rw [h, List.count_eq_zero.mpr hnone] at hcount
      exact List.count_eq_zero.mp hcount
    have htabs := expandTabs_eq_self t htab
    -- As many carriage returns are left as there were, so none was dropped.
    have hends : joinLineEnds t = t := by
      have hcount := count_apply_plain c t carriageReturn (by decide)
      have hlen := length_joinLineEnds t
      rw [h, htabs] at hcount
      exact (joinLineEnds_sublist t).eq_of_length (by omega)
    -- What is left to do is filling up, and the lines show that it did nothing.
    have hlines := lines_apply_plain c t
    rw [h, htabs, hends] at hlines
    exact ⟨htab, (joinLineEnds_eq_self_iff t).mp hends,
      (map_fillTo_eq_self_iff _).mp hlines.symm⟩
  · intro h
    rw [apply_plain, expandTabs_eq_self t h.tabless, (joinLineEnds_eq_self_iff t).mpr h.endings,
      (map_fillTo_eq_self_iff _).mpr h.even, Text.joinWith_lines]

/-- A text with no blanks in it is steady. -/
theorem Steady.of_spaceless (t : Text) (h : ∀ b ∈ t, Lexer.isSpace b = false) : Steady t := by
  have hnot : ∀ b, Lexer.isSpace b = true → b ∉ t := by
    intro b hb hmem
    rw [h b hmem] at hb
    exact Bool.false_ne_true hb
  -- A line feed is a blank, so there is one line only.
  have hfeed : Unbroken t := hnot lineFeed (by decide)
  refine ⟨hnot 9 (by decide), fun hpair => hfeed (hpair.subset (by decide)), ?_⟩
  rw [Text.lines_of_unbroken t hfeed]
  intro a ha b hb
  rw [List.mem_singleton.mp ha, List.mem_singleton.mp hb]

end Paint

namespace Diagnostic

/-- Colours where there are none. -/
def Style.plain : Style := ⟨true, .plain⟩

theorem Style.paint_plain (c : Paint.Colour) (t : Text) :
    Style.plain.paint c t = Paint.apply .plain c t := by
  cases t with
  | nil =>
      have hnil : Paint.Steady [] := .of_spaceless [] (List.forall_mem_nil _)
      rw [(Paint.apply_plain_eq_self_iff c []).mpr hnil]
      rfl
  | cons b t => rfl

/-- Without blanks a text is printed as it is. -/
theorem Style.paint_plain_spaceless (c : Paint.Colour) (t : Text)
    (h : t.all (fun b => !Lexer.isSpace b) = true) : Style.plain.paint c t = t := by
  rw [Style.paint_plain, Paint.apply_plain_eq_self_iff]
  refine .of_spaceless t fun b hb => ?_
  exact (Bool.not_eq_true' _).mp (List.all_eq_true.mp h b hb)

/-- A diagnostic in which colours are asked for where there are none. The text at the fault is
    laid out, and the markers are those of the text as it was. -/
theorem ofFault_plain (src : Text) (f : Fault) (s : Sections) (hs : sections src f.span = s) :
    ofFault .plain src f = Text.ofLines (layout f
      [quoteRow { s with offending := Paint.apply .plain .red s.offending }]
      (Width.ofText s.before) (marks s)) := by
  -- What is painted apart from the source has no blanks in it.
  have harrow : Style.plain.paint .blue (Text.ofString "-->") = Text.ofString "-->" :=
    Style.paint_plain_spaceless _ _ (by decide)
  have hbar : Style.plain.paint .blue (Text.ofString "|") = Text.ofString "|" :=
    Style.paint_plain_spaceless _ _ (by decide)
  have hmarks : Style.plain.paint .blue (List.replicate (marks s) 94) =
      List.replicate (marks s) 94 := by
    refine Style.paint_plain_spaceless _ _ (List.all_eq_true.mpr fun b hb => ?_)
    rw [List.eq_of_mem_replicate hb]
    rfl
  rw [ofFault_eq_rows, hs, rows, header, gutter, harrow, hbar, ← marks, hmarks,
    Style.paint_plain]
  rfl

/-- It is the diagnostic without colours if and only if the text at the fault is steady. -/
theorem ofFault_plain_eq_iff (src : Text) (f : Fault) :
    ofFault .plain src f = ofFault .none src f ↔
      Paint.Steady (sections src f.span).offending := by
  have hquote : ∀ t : Text, Text.ofLines [t] = t ++ [lineFeed] := fun t => List.append_nil _
  rw [ofFault_plain src f _ rfl, ofFault_none src f _ rfl, layout, layout]
  simp only [Text.ofLines_append, List.append_cancel_right_eq, List.append_cancel_left_eq, hquote,
    quoteRow, Paint.apply_plain_eq_self_iff]

end Diagnostic

open Diagnostic (ofFault sections)

/-- Colours on a terminal that has none, for every source that fails. The diagnostic is the
    one without colours if and only if there is nothing to be laid out in the text at the
    fault, and if there is, it is a call. -/
theorem colouring_adds_only_colour_iff (src : Text) (stop : Stop)
    (h : (Interpreter.run src).value = .error stop) :
    ∃ (f : Fault) (s : Diagnostic.Sections), stop = .fault f ∧ sections src f.span = s ∧
      ofFault .plain src f = Text.ofLines (Diagnostic.layout f
        [Diagnostic.quoteRow { s with offending := Paint.apply .plain .red s.offending }]
        (Width.ofText s.before) (Diagnostic.marks s)) ∧
      (ofFault .plain src f = ofFault .none src f ↔ Paint.Steady s.offending) ∧
      (¬ Paint.Steady s.offending → f.cause.isAboutCall = true) := by
  rcases located_of_run src stop h with ⟨f, hstop, hlocated⟩
  refine ⟨f, sections src f.span, hstop, rfl, Diagnostic.ofFault_plain src f _ rfl,
    Diagnostic.ofFault_plain_eq_iff src f, fun hunsteady => ?_⟩
  by_contra hcall
  rw [Bool.not_eq_true] at hcall
  exact hunsteady (.of_spaceless _ (spaceless_of_located src f hlocated hcall))

/-- A call over two lines that are equally wide. -/
def evenCall : Text := Text.ofString "1 1 ff(\n A)"

theorem colouring_adds_only_colour_iff_evenCall :
    (Interpreter.run evenCall).value =
      .error (.fault ⟨.undefinedFunction (Text.ofString "ff"), ⟨4, 11⟩⟩) ∧
    ofFault .plain evenCall ⟨.undefinedFunction (Text.ofString "ff"), ⟨4, 11⟩⟩ =
      ofFault .none evenCall ⟨.undefinedFunction (Text.ofString "ff"), ⟨4, 11⟩⟩ := by
  have hrun : (Interpreter.run evenCall).value =
      .error (.fault ⟨.undefinedFunction (Text.ofString "ff"), ⟨4, 11⟩⟩) := by
    decide +kernel
  refine ⟨hrun, ?_⟩
  rcases colouring_adds_only_colour_iff evenCall _ hrun with ⟨f, s, hf, rfl, -, hiff, -⟩
  rw [← Stop.fault.inj hf] at hiff
  exact hiff.mpr ⟨by decide +kernel, by decide +kernel, by decide +kernel⟩

/-- A call with a tab in it. -/
def tabCall : Text := Text.ofString "0 f(\t)"

/-- The tab in a call is printed as four spaces if colours are asked for, and as a tab if not. -/
theorem colouring_expands_tabCall :
    (Interpreter.run tabCall).value =
      .error (.fault ⟨.undefinedFunction (Text.ofString "f"), ⟨2, 6⟩⟩) ∧
    Text.lines (ofFault .plain tabCall ⟨.undefinedFunction (Text.ofString "f"), ⟨2, 6⟩⟩) =
      [Text.ofString "--> Error: cannot call undefined function `f` (at 2..6)",
        Text.ofString " |",
        Text.ofString " | 0 f(    )",
        Text.ofString " |   ^^^",
        Text.ofString " |",
        []] ∧
    Text.lines (ofFault .none tabCall ⟨.undefinedFunction (Text.ofString "f"), ⟨2, 6⟩⟩) =
      [Text.ofString "--> Error: cannot call undefined function `f` (at 2..6)",
        Text.ofString " |",
        Text.ofString " | 0 f(\t)",
        Text.ofString " |   ^^^",
        Text.ofString " |",
        []] := by
  decide +kernel

end BitLogic
