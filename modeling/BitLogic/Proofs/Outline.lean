import BitLogic.Listing
import BitLogic.Proofs.Characters
import BitLogic.Proofs.Nesting
import BitLogic.Proofs.Paths
import BitLogic.Proofs.Wording

/-!
# What a Tree Listing Tells

An expression is listed with one node to a line, in the order of a walk, and a line says how
deep its node is, what it is, how it is called and where it stands. It does not say how many
arguments a call has, nor where the name of a call ends. For expressions that were read from a
source the listing determines all of it.

A line is read from left to right. The spaces at its front end where the label begins, and a
name is made of letters, so it is quoted as it is and ends at the quotation mark. The numbers
of a span end where their digits do (`row_inj`). The name of a call begins where the call does
and is as long as it is, so that its place is known although it is not listed.

The arguments of a node are found by the depths (`determined`). What is behind the listing of
an expression at depth `d` is not deeper than `d`, whereas everything below its first line is.
So two listings that agree cannot stop listing the arguments of a node at different lines.

## Main definitions

* `Expr.SameHead`, `Expr.Twin`: Two nodes are the same, their arguments apart.
* `Expr.StartsAbove`: What is behind the visits to an expression.
* `Expr.fullWalk`, `Expr.fullWalkAll`: The visits to every node.
* `Expr.Determined`: An expression can be told from others by the walk over it.
* `Text.isSigned`: A byte of a number.
* `Listing.row`: The line of a visit.

## Theorems

* `Expr.SameHead.eq_of_children`, `Expr.SameHead.symm`, `Expr.Twin.symm`: Nodes that are
  the same, their arguments apart.
* `Expr.fullWalk_eq`, `Expr.fullWalkAll_cons`: The visits to every node.
* `Expr.StartsAbove.walkAll`, `Expr.not_twin_of_startsAbove`: What is behind the visits
  to an expression.
* `Expr.eq_of_walkAll`, `Expr.determined`, `Expr.eq_of_visits`: An expression is
  determined by the nodes of a walk and their depths.
* `Text.ofNat_inj`, `Text.ofInt_inj`: A number is determined by what is printed of it.
* `Text.all_isSigned_ofNat`, `Text.all_isSigned_ofInt`, `Text.minus_notMem_ofNat`: The
  bytes of a number.
* `Span.text_inj`: A span is determined by what is printed of it.
* `Quoted.lt_of_isLetter`, `Quoted.escape_letter`, `Quoted.escapeAll_letters`: A letter
  is quoted as it is.
* `Quoted.text_of_letters`: A name is quoted as it is.
* `Ident.Names.eq`: A name is determined by its letters and its start.
* `Listing.tree_eq_ofLines`, `Listing.unbroken_label`, `Listing.unbroken_row`,
  `Listing.lines_tree`: The lines of a listing.
* `Listing.head_label`, `Listing.all_label`: Where a label begins and ends.
* `Listing.sameHead_of_label`: What a label tells.
* `Listing.row_inj`, `Listing.rows_inj`: What lines tell.
* `Listing.tree_loses_nothing`: What a listing tells.
* `Listing.parse_reset`, `Listing.tree_loses_nothing_inset`: Two sources that are listed
  alike.
-/

namespace BitLogic

/-! ## From the depths to the expression -/

namespace Expr

/-- The two nodes are the same, their arguments apart. -/
inductive SameHead : Expr → Expr → Prop
  | var (id : Ident) (s : Span) : SameHead (.var id s) (.var id s)
  | call (id : Ident) (args args' : List Expr) (s : Span) :
      SameHead (.call id args s) (.call id args' s)
  | blank (s : Span) : SameHead (.blank s) (.blank s)

theorem SameHead.eq_of_children {a b : Expr} (h : SameHead a b) (hargs : a.children = b.children) :
    a = b := by
  cases h with
  | var id s => rfl
  | blank s => rfl
  | call id args args' s => exact congrArg (Expr.call id · s) hargs

theorem SameHead.symm {a b : Expr} (h : SameHead a b) : SameHead b a := by
  cases h with
  | var id s => exact .var id s
  | blank s => exact .blank s
  | call id args args' s => exact .call id args' args s

/-- The two visits are to the same node, its arguments apart, at the same depth. -/
def Twin (v w : Visit) : Prop := v.depth = w.depth ∧ SameHead v.node w.node

/-- The first of the visits, if there is one, is not deeper than `d`. -/
def StartsAbove (d : Nat) (vs : List Visit) : Prop := ∀ v, vs.head? = some v → v.depth ≤ d

/-- The visits to every node, from depth `d` on. -/
def fullWalk (d : Nat) (e : Expr) : List Visit := walk (fun _ _ => true) d e

/-- The visits to every node of several neighbours. -/
def fullWalkAll (d : Nat) (es : List Expr) : List Visit := walkAll (fun _ _ => true) d es

theorem fullWalk_eq (d : Nat) (e : Expr) :
    fullWalk d e = ⟨e, d⟩ :: fullWalkAll (d + 1) e.children := by
  rw [fullWalk, walk_eq_cons, if_pos rfl, fullWalkAll]

@[simp]
theorem fullWalkAll_cons (d : Nat) (e : Expr) (es : List Expr) :
    fullWalkAll d (e :: es) = fullWalk d e ++ fullWalkAll d es := by
  rw [fullWalkAll, walkAll]
  rfl

/-- What is behind an argument is another argument, or what is behind them all. -/
theorem StartsAbove.walkAll {d : Nat} (es : List Expr) {more : List Visit}
    (h : StartsAbove d more) : StartsAbove (d + 1) (fullWalkAll (d + 1) es ++ more) := by
  intro v hv
  cases es with
  | nil => exact Nat.le_succ_of_le (h v hv)
  | cons e es =>
      rw [fullWalkAll_cons, fullWalk_eq, List.cons_append, List.cons_append, List.head?_cons,
        Option.some.injEq] at hv
      rw [← hv]

/-- Neighbours are not listed against visits that start above them. -/
theorem not_twin_of_startsAbove {d : Nat} (e : Expr) (es : List Expr) (more vs : List Visit)
    (hvs : StartsAbove d vs)
    (h : List.Forall₂ Twin vs (fullWalkAll (d + 1) (e :: es) ++ more)) : False := by
  rw [fullWalkAll_cons, fullWalk_eq, List.cons_append, List.cons_append] at h
  cases h with
  | cons htwin _ =>
      have hle := hvs _ rfl
      rw [htwin.1] at hle
      exact absurd hle (Nat.not_succ_le_self d)

theorem Twin.symm {v w : Visit} (h : Twin v w) : Twin w v := ⟨h.1.symm, h.2.symm⟩

/-- An expression can be told from any other by the walk over it, whatever is behind. -/
def Determined (a : Expr) : Prop :=
  ∀ (b : Expr) (d : Nat) (more more' : List Visit), StartsAbove d more → StartsAbove d more' →
    List.Forall₂ Twin (fullWalk d a ++ more) (fullWalk d b ++ more') →
      a = b ∧ List.Forall₂ Twin more more'

/-- So can neighbours, if each of them can. -/
theorem eq_of_walkAll (as : List Expr) (h : ∀ a ∈ as, Determined a) :
    ∀ (bs : List Expr) (d : Nat) (more more' : List Visit), StartsAbove d more →
      StartsAbove d more' →
      List.Forall₂ Twin (fullWalkAll (d + 1) as ++ more) (fullWalkAll (d + 1) bs ++ more') →
        as = bs ∧ List.Forall₂ Twin more more' := by
  induction as with
  | nil =>
      intro bs d more more' hmore _ hall
      cases bs with
      | nil => exact ⟨rfl, hall⟩
      | cons b bs => exact (not_twin_of_startsAbove b bs more' more hmore hall).elim
  | cons a as ih =>
      intro bs d more more' hmore hmore' hall
      rw [List.forall_mem_cons] at h
      cases bs with
      | nil =>
          -- The other way round the same argument applies.
          have hflip := hall.flip.imp fun _ _ => Twin.symm
          exact (not_twin_of_startsAbove a as more more' hmore' hflip).elim
      | cons b bs =>
          -- Seen from the first neighbour, the others are a part of what is behind.
          rw [fullWalkAll_cons, fullWalkAll_cons, List.append_assoc, List.append_assoc] at hall
          rcases h.1 b (d + 1) _ _ (hmore.walkAll as) (hmore'.walkAll bs) hall with ⟨rfl, hrest⟩
          rcases ih h.2 bs d more more' hmore hmore' hrest with ⟨rfl, hlast⟩
          exact ⟨rfl, hlast⟩

/-- An expression is determined by the nodes of a walk over it and their depths, by induction
    on the expression. What is behind it goes along, since it is what ends the arguments. -/
theorem determined (a : Expr) : Determined a := by
  induction a using induction_children with
  | node a ih =>
      intro b d more more' hmore hmore' hall
      rw [fullWalk_eq, fullWalk_eq, List.cons_append, List.cons_append,
        List.forall₂_cons] at hall
      -- The nodes themselves are the same, and what is below them is determined by their
      -- arguments.
      rcases eq_of_walkAll a.children ih b.children d more more' hmore hmore' hall.2 with
        ⟨hargs, hlast⟩
      exact ⟨hall.1.2.eq_of_children hargs, hlast⟩

theorem eq_of_visits (a b : Expr) (h : List.Forall₂ Twin a.visits b.visits) : a = b := by
  have hnil : StartsAbove 0 [] := fun v hv => by simp only [List.head?_nil, reduceCtorEq] at hv
  refine (determined a b 0 [] [] hnil hnil ?_).1
  rw [List.append_nil, List.append_nil]
  exact h

end Expr

/-! ## From a line to the node -/

namespace Text

theorem ofNat_inj (m n : Nat) (h : ofNat m = ofNat n) : m = n := by
  rw [← (isNumeral_ofNat m).2.2, h, (isNumeral_ofNat n).2.2]

/-- The byte is a digit or the minus sign. -/
def isSigned (b : UInt8) : Bool := Token.isDigit b || b == 45

theorem all_isSigned_ofNat (n : Nat) : (ofNat n).all isSigned = true := by
  refine List.all_eq_true.mpr fun b hb => ?_
  rw [isSigned, List.all_eq_true.mp (isNumeral_ofNat n).2.1 b hb, Bool.true_or]

theorem all_isSigned_ofInt (i : Int) : (ofInt i).all isSigned = true := by
  rw [ofInt]
  by_cases hi : i < 0
  · rw [if_pos hi, List.all_append, all_isSigned_ofNat]
    rfl
  · rw [if_neg hi]
    exact all_isSigned_ofNat _

theorem minus_notMem_ofNat (n : Nat) : 45 ∉ ofNat n := fun hmem =>
  absurd (List.all_eq_true.mp (isNumeral_ofNat n).2.1 45 hmem) (by decide)

/-- A number with its sign is determined by what is printed of it. -/
theorem ofInt_inj (i j : Int) (h : ofInt i = ofInt j) : i = j := by
  have hsign : 45 ∈ ofString "-" := by decide
  rw [ofInt, ofInt] at h
  by_cases hi : i < 0
  · by_cases hj : j < 0
    · rw [if_pos hi, if_pos hj, List.append_cancel_left_eq] at h
      have habs := ofNat_inj _ _ h
      omega
    · -- A sign would be among the digits of the other number.
      rw [if_pos hi, if_neg hj] at h
      exact absurd (h ▸ List.mem_append_left _ hsign) (minus_notMem_ofNat _)
  · by_cases hj : j < 0
    · rw [if_neg hi, if_pos hj] at h
      exact absurd (h ▸ List.mem_append_left _ hsign) (minus_notMem_ofNat _)
    · rw [if_neg hi, if_neg hj] at h
      have habs := ofNat_inj _ _ h
      omega

end Text

/-- A span is determined by what is printed of it. -/
theorem Span.text_inj (s t : Span) (h : s.text = t.text) : s = t := by
  rw [text, text, List.append_assoc, List.append_assoc] at h
  -- The first number ends at the dots, which are no part of a number.
  have hdots : ∀ (rest : Text) (b : UInt8),
      (Text.ofString ".." ++ rest).head? = some b → Text.isSigned b = false := by
    intro rest b hb
    rw [← Option.some.inj hb]
    decide
  rcases List.run_inj Text.isSigned _ _ _ _ (Text.all_isSigned_ofInt s.start)
    (Text.all_isSigned_ofInt t.start) (hdots _) (hdots _) h with ⟨hstart, hrest⟩
  rw [List.append_cancel_left_eq] at hrest
  rcases s with ⟨a, b⟩
  rcases t with ⟨c, d⟩
  rw [mk.injEq]
  exact ⟨Text.ofInt_inj a c hstart, Text.ofInt_inj b d hrest⟩

namespace Quoted

theorem lt_of_isLetter (b : UInt8) (h : Lexer.isLetter b = true) : b.toNat < 128 := by
  simp only [Lexer.isLetter, Bool.or_eq_true, Bool.and_eq_true, decide_eq_true_eq,
    UInt8.le_iff_toNat_le, UInt8.reduceToNat] at h
  omega

/-- A letter is printable and is no quotation mark. -/
theorem escape_letter (b : UInt8) (h : Lexer.isLetter b = true) : escape 34 b.toNat = [b] := by
  -- There are few enough letters to look at each.
  have hall : ∀ c < 128, Lexer.isLetter (UInt8.ofNat c) = true →
      escape 34 c = [UInt8.ofNat c] := by decide +kernel
  have hb := hall b.toNat (lt_of_isLetter b h)
  rw [UInt8.ofNat_toNat] at hb
  exact hb h

theorem escapeAll_letters (t : Text) (h : ∀ b ∈ t, Lexer.isLetter b = true) :
    escapeAll t (t.map fun b => ⟨b.toNat, 1⟩) = t := by
  induction t with
  | nil => rfl
  | cons b t ih =>
      rw [List.forall_mem_cons] at h
      have hlt := lt_of_isLetter b h.1
      -- A letter is no broken character, whose code is far beyond ASCII.
      have hcode : (⟨b.toNat, 1⟩ : Utf8.CodePoint) ≠ .broken := fun heq => by
        have hcode := congrArg Utf8.CodePoint.code heq
        simp only [Utf8.CodePoint.broken, Utf8.replacement] at hcode
        omega
      rw [List.map_cons, escapeAll, if_neg hcode, escape_letter b h.1, List.drop_succ_cons,
        List.drop_zero, ih h.2, List.singleton_append]

/-- A name is quoted as it is. -/
theorem text_of_letters (t : Text) (h : t.all Lexer.isLetter = true) :
    text t = [34] ++ t ++ [34] := by
  rw [List.all_eq_true] at h
  rw [text, Utf8.codePoints_ascii t fun b hb => lt_of_isLetter b (h b hb), escapeAll_letters t h]

end Quoted

/-- A name is determined by what it is and where it begins. -/
theorem Ident.Names.eq {src src' : Text} {id id' : Ident} (h : id.Names src) (h' : id'.Names src')
    (hname : id.name = id'.name) (hstart : id.span.start = id'.span.start) : id = id' := by
  rcases (Text.slice?_eq_some_iff _ _ _ _).mp h.spelt with ⟨before, after, -, hlo, hhi⟩
  rcases (Text.slice?_eq_some_iff _ _ _ _).mp h'.spelt with ⟨before', after', -, hlo', hhi'⟩
  rw [← hname] at hhi'
  rcases id with ⟨name, lo, hi⟩
  rcases id' with ⟨name', lo', hi'⟩
  simp only at hname hstart hlo hhi hlo' hhi'
  rw [Ident.mk.injEq, Span.mk.injEq]
  exact ⟨hname, hstart, by omega⟩

namespace Listing

/-- The line of a visit. -/
def row (v : Visit) : Text :=
  List.replicate (2 * v.depth) Text.space ++ label v.node ++ Text.ofString " @ " ++
    v.node.span.text

/-- A listing is a line for each visit. -/
theorem tree_eq_ofLines (e : Expr) : tree e = Text.ofLines (e.visits.map row) := by
  rw [tree, Text.ofLines, List.flatMap_map]
  rfl

@[simp]
theorem unbroken_label (e : Expr) : Text.Unbroken (label e) := by
  cases e with
  | var id s => simp +decide [label]
  | call id args s => simp +decide [label]
  | blank s => exact (by decide : Text.Unbroken (Text.ofString "?"))

@[simp]
theorem unbroken_row (v : Visit) : Text.Unbroken (row v) := by
  simp +decide [row, Text.unbroken_replicate]

/-- The lines of a listing, one for each visit. -/
theorem lines_tree (e : Expr) : Text.lines (tree e) = e.visits.map row ++ [[]] := by
  have hlines := Text.lines_ofLines (e.visits.map row) []
    (by simp)
  rw [List.append_nil] at hlines
  rw [tree_eq_ofLines, hlines]
  rfl

/-- A label does not begin with a space. -/
theorem head_label (e : Expr) (rest : Text) (b : UInt8) (h : (label e ++ rest).head? = some b) :
    (b == Text.space) = false := by
  cases e <;> rw [← Option.some.inj h] <;> decide

/-- There is no sign like the one behind a label in the label of a node that stands where it
    should. -/
theorem all_label {src : Text} (e : Expr) (h : e.Placed src) :
    (label e ++ [Text.space]).all (· != 64) = true := by
  have hquoted : ∀ id : Ident, id.Names src → (Quoted.text id.name).all (· != 64) = true := by
    intro id hid
    -- A name has letters only, and the sign is none.
    have hname : id.name.all (· != 64) = true := by
      refine List.all_eq_true.mpr fun b hb => bne_iff_ne.mpr ?_
      rintro rfl
      exact absurd (List.all_eq_true.mp hid.letters 64 hb) (by decide)
    rw [Quoted.text_of_letters _ hid.letters, List.all_append, List.all_append, hname]
    rfl
  cases h with
  | var id hid =>
      rw [label, List.all_append, List.all_append, List.all_append, hquoted id hid]
      rfl
  | call id args s hid _ _ _ _ =>
      rw [label, List.all_append, List.all_append, List.all_append, hquoted id hid]
      rfl

/-- Nodes of sources are the same, their arguments apart, if their labels and spans are. -/
theorem sameHead_of_label {src src' : Text} (a b : Expr) (ha : a.Placed src) (hb : b.Placed src')
    (hspan : a.span = b.span) (h : label a = label b) : a.SameHead b := by
  have hname : ∀ id id' : Ident, id.Names src → id'.Names src' →
      Quoted.text id.name = Quoted.text id'.name → id.name = id'.name := by
    intro id id' hid hid' htext
    rw [Quoted.text_of_letters _ hid.letters, Quoted.text_of_letters _ hid'.letters,
      List.append_cancel_right_eq, List.append_cancel_left_eq] at htext
    exact htext
  have hkind : Text.ofString "VAR (" = 86 :: Text.ofString "AR (" ∧
      Text.ofString "APP (" = 65 :: Text.ofString "PP (" := by decide
  cases ha with
  | var id hid =>
      cases hb with
      | var id' hid' =>
          rw [label, label, List.append_cancel_right_eq, List.append_cancel_left_eq] at h
          rw [hid.eq hid' (hname id id' hid hid' h) (congrArg Span.start hspan)]
          exact .var id' id'.span
      | call id' args' s' _ _ _ _ _ =>
          -- The two kinds are told apart by the first letter.
          rw [label, label, hkind.1, hkind.2] at h
          exact absurd (List.cons.inj h).1 (by decide)
  | call id args s hid hstart _ _ _ =>
      cases hb with
      | var id' hid' =>
          rw [label, label, hkind.1, hkind.2] at h
          exact absurd (List.cons.inj h).1 (by decide)
      | call id' args' s' hid' hstart' _ _ _ =>
          rw [label, label, List.append_cancel_right_eq, List.append_cancel_left_eq] at h
          have hs : s = s' := hspan
          rw [hid.eq hid' (hname id id' hid hid' h) (by rw [← hstart, hs, hstart']), hs]
          exact .call id' args args' s'

/-- What a line tells: how deep the node is, and all about it but its arguments. -/
theorem row_inj {src src' : Text} (v w : Visit) (hv : v.node.Placed src)
    (hw : w.node.Placed src') (h : row v = row w) : Expr.Twin v w := by
  -- The spaces at the front end where the label begins, so there are as many in both lines.
  have hindent : ∀ n, (List.replicate n Text.space).all (· == Text.space) = true := by
    intro n
    exact List.all_replicate.trans (by simp)
  rw [row, row, List.append_assoc, List.append_assoc, List.append_assoc, List.append_assoc] at h
  rcases List.run_inj (· == Text.space) _ _ _ _ (hindent _) (hindent _) (head_label _ _)
    (head_label _ _) h with ⟨hdepth, hrest⟩
  have hlen := congrArg List.length hdepth
  rw [List.length_replicate, List.length_replicate] at hlen
  -- The label ends before the first sign of the kind that stands behind it.
  have hbehind : ∀ e : Expr, label e ++ (Text.ofString " @ " ++ e.span.text) =
      (label e ++ [Text.space]) ++ (64 :: Text.space :: e.span.text) := by
    intro e
    rw [List.append_assoc]
    rfl
  have hsign : ∀ (rest : Text) (b : UInt8), (64 :: rest).head? = some b → (b != 64) = false := by
    intro rest b hb
    rw [← Option.some.inj hb]
    rfl
  rw [hbehind, hbehind] at hrest
  rcases List.run_inj (· != 64) _ _ _ _ (all_label _ hv) (all_label _ hw) (hsign _) (hsign _)
    hrest with ⟨hlabel, hspan⟩
  rw [List.append_cancel_right_eq] at hlabel
  have hspans := Span.text_inj _ _ (List.cons.inj (List.cons.inj hspan).2).2
  exact ⟨by omega, sameHead_of_label _ _ hv hw hspans hlabel⟩

/-- What lines tell, one by one. -/
theorem rows_inj {src src' : Text} (vs ws : List Visit) (hvs : ∀ v ∈ vs, v.node.Placed src)
    (hws : ∀ w ∈ ws, w.node.Placed src') (h : vs.map row = ws.map row) :
    List.Forall₂ Expr.Twin vs ws := by
  induction vs generalizing ws with
  | nil =>
      rw [List.map_eq_nil_iff.mp h.symm]
      exact .nil
  | cons v vs ih =>
      cases ws with
      | nil => simp only [List.map_cons, List.map_nil, reduceCtorEq] at h
      | cons w ws =>
          rw [List.forall_mem_cons] at hvs hws
          rw [List.map_cons, List.map_cons, List.cons.injEq] at h
          exact .cons (row_inj v w hvs.1 hws.1 h.1) (ih ws hvs.2 hws.2 h.2)

/-- What a listing tells. Two expressions that were read from sources and are listed in the
    same way are the same. The listing of any expression has a line for each path that leads
    to a node, in the order of the paths, which begins with two spaces for each step of the
    path. -/
theorem tree_loses_nothing :
    (∀ (src src' : Text) (p p' : Program), parse src = .ok p → parse src' = .ok p' →
      tree p.expr = tree p'.expr → p.expr = p'.expr) ∧
    ∀ e : Expr, ∃ qs : List (List Nat × Expr),
      (∀ q, q ∈ qs ↔ e.nodeAt? q.1 = some q.2) ∧ (qs.Pairwise fun q r => q.1 < r.1) ∧
      Text.lines (tree e) = (qs.map fun q => List.replicate (2 * q.1.length) Text.space ++
        label q.2 ++ Text.ofString " @ " ++ q.2.span.text) ++ [[]] := by
  constructor
  · intro src src' p p' hp hp' h
    -- The nodes of a parsed tree are in place, which is what the lines are read by.
    have hplaced : ∀ (t : Text) (r : Program), parse t = .ok r →
        ∀ v ∈ r.expr.visits, v.node.Placed t := fun t r hr v hv =>
      placed_of_parse t r hr v.node (List.mem_map_of_mem hv)
    have hlines := congrArg Text.lines h
    rw [lines_tree, lines_tree, List.append_cancel_right_eq] at hlines
    exact Expr.eq_of_visits _ _ (rows_inj _ _ (hplaced src p hp) (hplaced src' p' hp') hlines)
  · intro e
    rcases Expr.walk_inPathOrder (fun _ _ => true) e 0 with ⟨qs, hqs⟩
    refine ⟨qs, fun q => (hqs.complete q).trans (Expr.leads_always_iff q.1 0 e q.2), hqs.ordered,
      ?_⟩
    rw [lines_tree, Expr.visits, hqs.visits, List.map_map]
    congr 1
    refine List.map_congr_left fun q _ => ?_
    rw [Function.comp_apply, row, Expr.visitAt, Nat.zero_add]

/-- A source with the same names at the same places as `inset`, and otherwise different. -/
def reset : Text := Text.ofString "1 0\nor(A ,not(\tB\t))"

theorem parse_reset : parse reset = .ok ⟨[false], insetProgram.expr⟩ := by
  have hlex : lex reset = [⟨.number, ⟨0, 1⟩⟩, ⟨.number, ⟨2, 3⟩⟩, ⟨.ident, ⟨4, 6⟩⟩,
      ⟨.lparen, ⟨6, 7⟩⟩, ⟨.ident, ⟨7, 8⟩⟩, ⟨.comma, ⟨9, 10⟩⟩, ⟨.ident, ⟨10, 13⟩⟩,
      ⟨.lparen, ⟨13, 14⟩⟩, ⟨.ident, ⟨15, 16⟩⟩, ⟨.rparen, ⟨17, 18⟩⟩, ⟨.rparen, ⟨18, 19⟩⟩,
      .endAt 19] := by decide +kernel
  rw [parse_eq_drive, hlex]
  rfl

theorem tree_loses_nothing_inset : ∃ p, parse inset = .ok insetProgram ∧ parse reset = .ok p ∧
    Text.lines (tree p.expr) =
      [Text.ofString "APP (\"or\") @ 4..19",
        Text.ofString "  VAR (\"A\") @ 7..8",
        Text.ofString "  APP (\"not\") @ 10..18",
        Text.ofString "    VAR (\"B\") @ 15..16",
        []] ∧
    insetProgram.expr = p.expr := by
  refine ⟨_, parse_inset, parse_reset, by decide +kernel, ?_⟩
  exact tree_loses_nothing.1 inset reset _ _ parse_inset parse_reset rfl

end Listing

end BitLogic
