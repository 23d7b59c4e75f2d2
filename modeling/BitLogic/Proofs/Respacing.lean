import BitLogic.Proofs.Grammar
import BitLogic.Proofs.Likeness
import BitLogic.Proofs.Tiling

/-!
# Layout Leaves No Trace

Two sources with the same tokens, spaced in different ways. Their offsets have nothing
to do with each other, yet every answer is the same: the program up to its spans, its
value, its faults and its text, and where there is a fault, it is about the same tokens.

The proof follows two runs of the parser. Phases are alike if they hold the same bits
and names and corresponding spans. A token is taken in both runs or in neither, and what
comes of it is alike again (`take?_like`), so the runs end alike (`drive_like`).

Spans correspond if they begin with the same token and end with the same token, counted
in the list of tokens (`Between`). The tokens of a source stand in order, so which of
two tokens comes first can be seen from their offsets in either source. That is all the
parser and the checker ask of offsets. The one takes the smaller start and the larger
end of two spans, and the other asks whether two spans are equal.

A token type does not say which character was unexpected. The bytes do: what a character
is decoded to depends on its own bytes and not on those behind it (`code_of_yields`).

## Main definitions

* `Token.Kind.plain`: The type of a token.
* `Respaced`: Two sources have tokens of the same types that spell the same.
* `SameIndex`: Tokens at one index of two lists.
* `SameToken`, `Between`: Spans of the same token, and of the same run of tokens.
* `Token.Ordered`: Tokens one behind the other.
* `Token.Like`: Tokens of one kind that spell the same.
* `Parser.Frame.Like`, `Parser.Phase.Like`: The same phase with corresponding spans.

## Theorems

* `Token.InOrder.ordered`, `lex_ordered`: The tokens of a source stand in order.
* `Token.Kind.eq_of_plain`: Kinds of one type are equal, or unexpected characters.
* `CallsFor.yields`: What an unexpected character is decoded to.
* `Token.kind_of_plain`: Tokens of one type that spell the same are of one kind.
* `between_of_sameToken`: The span of a token begins and ends with it.
* `sameIndex_append`, `between_append`: Tokens behind change nothing.
* `Token.ordered_lt_iff`, `sameIndex_lt_iff`, `between_lt_iff`: Which of two tokens
  comes first, by their indices.
* `between_eq_iff`, `between_cover`: What the checker and the parser ask of spans.
* `Parser.wanting_like`, `Parser.valueOf_like`, `Parser.bounded_like`,
  `Parser.takeIdent_like`: What is taken, by its kind.
* `Parser.closeCall_like`, `Parser.takeAfter?_like`, `Parser.take?_like`: One step of
  two runs.
* `Parser.refuseAfter_like`, `Parser.refuse_like`: Where two runs end.
* `Parser.drive_like`, `parse_like`: Two runs.
* `Token.lexeme?_endAt`: The end of a source spells nothing.
* `called_like`, `endAt_like`: The tokens of the sources are alike.
* `layout_leaves_no_trace`: All answers for two sources that are spaced differently.
* `respaced_tight_loose`, `layout_leaves_no_trace_tight_loose`: A program on one line
  and spread out.
-/

namespace BitLogic

/-! ## Tokens in order -/

/-- Each token begins and ends before those behind it. -/
def Token.Ordered (ts : List Token) : Prop :=
  ts.Pairwise fun t u => t.span.start < u.span.start ∧ t.span.stop < u.span.stop

theorem Token.InOrder.ordered {hi : Int} {ts : List Token} : ∀ {lo : Int}, InOrder lo hi ts →
    Ordered ts := by
  induction ts with
  | nil => exact fun _ => List.Pairwise.nil
  | cons t ts ih =>
      rintro lo ⟨-, hne, hrest⟩
      refine List.Pairwise.cons (fun u hu => ?_) (ih hrest)
      have hu := hrest.bounds u hu
      omega

/-- The tokens of a source stand in order, each of the kind that its bytes call for, and
    behind them there is `eof`. -/
theorem lex_ordered (src : Text) : ∃ body, lex src = body ++ [.endAt src.length] ∧
    Token.Ordered body ∧ ∀ t ∈ body, t.Called src := by
  rcases lex_inOrder src with ⟨body, hlex, hin, hbody⟩
  exact ⟨body, hlex, hin.ordered, fun t ht => (hbody t ht).2⟩

/-! ## Types and spellings -/

/-- The type of a token: its kind without the character that was unexpected. -/
def Token.Kind.plain : Token.Kind → Token.Kind
  | .unexpected _ => .unexpected 0
  | k => k

/-- The sources have as many tokens, of the same types and with the same spellings. -/
def Respaced (src src' : Text) : Prop :=
  List.Forall₂ (fun t u => t.kind.plain = u.kind.plain ∧ t.lexeme? src = u.lexeme? src')
    (lex src) (lex src')

/-- Kinds of the same type differ at most in the character that was unexpected. -/
theorem Token.Kind.eq_of_plain (k k' : Token.Kind) (h : k.plain = k'.plain) :
    k = k' ∨ ∃ c c', k = .unexpected c ∧ k' = .unexpected c' := by
  cases k <;> cases k' <;> simp_all [plain]

theorem CallsFor.yields {text after : Text} {c : Int} (h : CallsFor text after (.unexpected c)) :
    ∃ code : Nat, c = code ∧ Utf8.Yields (text ++ after) code text.length := by
  generalize hk : Token.Kind.unexpected c = k at h
  cases h with
  | run _ p _ _ hrun hne hall =>
      rw [← hk] at hrun
      simp only [Token.Kind.run?, reduceCtorEq] at hrun
  | lparen => simp only [reduceCtorEq] at hk
  | rparen => simp only [reduceCtorEq] at hk
  | comma => simp only [reduceCtorEq] at hk
  | other b s _ code hb hyields => exact ⟨code, Token.Kind.unexpected.inj hk, hyields⟩

/-- Tokens of the same type that spell the same are of the same kind. -/
theorem Token.kind_of_plain (src src' : Text) (t u : Token) (ht : t.Called src)
    (hu : u.Called src') (hplain : t.kind.plain = u.kind.plain)
    (hlex : t.lexeme? src = u.lexeme? src') : t.kind = u.kind := by
  rcases ht with ⟨before, text, after, rfl, htspan, htcall⟩
  rcases hu with ⟨before', text', after', rfl, huspan, hucall⟩
  rw [t.lexeme?_of_span before text after htspan, u.lexeme?_of_span before' text' after' huspan,
    Option.some.injEq] at hlex
  subst hlex
  rcases Token.Kind.eq_of_plain _ _ hplain with hk | ⟨c, c', hc, hc'⟩
  · exact hk
  · -- Both characters were unexpected, and they are the same by their bytes.
    rw [hc] at htcall
    rw [hc'] at hucall
    rcases htcall.yields with ⟨code, rfl, hyields⟩
    rcases hucall.yields with ⟨code', rfl, hyields'⟩
    rw [hc, hc', Utf8.code_of_yields text after after' code code' hyields hyields']

/-! ## Corresponding spans -/

/-- The tokens stand at the same index of the two lists. -/
def SameIndex (ts us : List Token) (t u : Token) : Prop :=
  ∃ i : Nat, ts[i]? = some t ∧ us[i]? = some u

/-- The spans are those of tokens at the same index. -/
def SameToken (ts us : List Token) (s s' : Span) : Prop :=
  ∃ t u, SameIndex ts us t u ∧ s = t.span ∧ s' = u.span

/-- The spans begin with tokens at the same index and end with tokens at the same
    index. -/
def Between (ts us : List Token) (s s' : Span) : Prop :=
  (∃ t u, SameIndex ts us t u ∧ s.start = t.span.start ∧ s'.start = u.span.start) ∧
    ∃ t u, SameIndex ts us t u ∧ s.stop = t.span.stop ∧ s'.stop = u.span.stop

theorem between_of_sameToken (ts us : List Token) (s s' : Span) (h : SameToken ts us s s') :
    Between ts us s s' := by
  rcases h with ⟨t, u, hi, rfl, rfl⟩
  exact ⟨⟨t, u, hi, rfl, rfl⟩, ⟨t, u, hi, rfl, rfl⟩⟩

theorem sameIndex_append {ts us : List Token} (ts' us' : List Token) {t u : Token}
    (h : SameIndex ts us t u) : SameIndex (ts ++ ts') (us ++ us') t u := by
  rcases h with ⟨i, ht, hu⟩
  have hi := (List.getElem?_eq_some_iff.mp ht).1
  have hi' := (List.getElem?_eq_some_iff.mp hu).1
  exact ⟨i, by rw [List.getElem?_append_left hi, ht], by rw [List.getElem?_append_left hi', hu]⟩

theorem between_append {ts us : List Token} (ts' us' : List Token) (s s' : Span)
    (h : Between ts us s s') : Between (ts ++ ts') (us ++ us') s s' := by
  rcases h with ⟨⟨t, u, hi, hstart⟩, ⟨v, w, hj, hstop⟩⟩
  exact ⟨⟨t, u, sameIndex_append ts' us' hi, hstart⟩, ⟨v, w, sameIndex_append ts' us' hj, hstop⟩⟩

/-- Of two tokens that stand in order, the one at the smaller index comes first. -/
theorem Token.ordered_lt_iff (ts : List Token) (h : Ordered ts) (i j : Nat) (t u : Token)
    (ht : ts[i]? = some t) (hu : ts[j]? = some u) :
    (t.span.start < u.span.start ↔ i < j) ∧ (t.span.stop < u.span.stop ↔ i < j) := by
  rw [Ordered, List.pairwise_iff_getElem] at h
  rw [List.getElem?_eq_some_iff] at ht hu
  rcases ht with ⟨hi, rfl⟩
  rcases hu with ⟨hj, rfl⟩
  rcases Nat.lt_trichotomy i j with hlt | rfl | hgt
  · have hij := h i j hi hj hlt
    omega
  · omega
  · have hji := h j i hj hi hgt
    omega

section

variable {ts us : List Token} (hts : Token.Ordered ts) (hus : Token.Ordered us)

include hts hus

/-- Which of two tokens comes first is a matter of their indices, so both sides agree. -/
theorem sameIndex_lt_iff (t u v w : Token) (h : SameIndex ts us t u) (h' : SameIndex ts us v w) :
    (t.span.start < v.span.start ↔ u.span.start < w.span.start) ∧
      (t.span.stop < v.span.stop ↔ u.span.stop < w.span.stop) := by
  rcases h with ⟨i, ht, hu⟩
  rcases h' with ⟨j, hv, hw⟩
  have hleft := Token.ordered_lt_iff ts hts i j t v ht hv
  have hright := Token.ordered_lt_iff us hus i j u w hu hw
  exact ⟨hleft.1.trans hright.1.symm, hleft.2.trans hright.2.symm⟩

theorem between_lt_iff (s s' r r' : Span) (h : Between ts us s s') (h' : Between ts us r r') :
    (s.start < r.start ↔ s'.start < r'.start) ∧ (s.stop < r.stop ↔ s'.stop < r'.stop) := by
  rcases h with ⟨⟨t, u, htu, hs, hs'⟩, ⟨t₂, u₂, htu₂, hs₂, hs₂'⟩⟩
  rcases h' with ⟨⟨v, w, hvw, hr, hr'⟩, ⟨v₂, w₂, hvw₂, hr₂, hr₂'⟩⟩
  rw [hs, hs', hr, hr', hs₂, hs₂', hr₂, hr₂']
  exact ⟨(sameIndex_lt_iff hts hus t u v w htu hvw).1,
    (sameIndex_lt_iff hts hus t₂ u₂ v₂ w₂ htu₂ hvw₂).2⟩

/-- Spans are equal on both sides or on neither. -/
theorem between_eq_iff (s s' r r' : Span) (h : Between ts us s s') (h' : Between ts us r r') :
    s = r ↔ s' = r' := by
  have hlt := between_lt_iff hts hus s s' r r' h h'
  have hgt := between_lt_iff hts hus r r' s s' h' h
  -- Neither begins before the other nor ends before it, on either side.
  rcases s with ⟨a, b⟩
  rcases s' with ⟨a', b'⟩
  rcases r with ⟨c, d⟩
  rcases r' with ⟨c', d'⟩
  simp only [Span.mk.injEq] at hlt hgt ⊢
  omega

/-- Whichever span begins first or ends last does so on both sides. -/
theorem between_cover (s s' r r' : Span) (h : Between ts us s s') (h' : Between ts us r r') :
    Between ts us (s.cover r) (s'.cover r') := by
  have hlt := between_lt_iff hts hus s s' r r' h h'
  rcases h with ⟨⟨t, u, htu, hs, hs'⟩, ⟨t₂, u₂, htu₂, hs₂, hs₂'⟩⟩
  rcases h' with ⟨⟨v, w, hvw, hr, hr'⟩, ⟨v₂, w₂, hvw₂, hr₂, hr₂'⟩⟩
  constructor
  · by_cases hfirst : s.start < r.start
    · have hfirst' := hlt.1.mp hfirst
      exact ⟨t, u, htu, by simp only [Span.cover]; omega, by simp only [Span.cover]; omega⟩
    · have hfirst' := fun h => hfirst (hlt.1.mpr h)
      exact ⟨v, w, hvw, by simp only [Span.cover]; omega, by simp only [Span.cover]; omega⟩
  · by_cases hlast : s.stop < r.stop
    · have hlast' := hlt.2.mp hlast
      exact ⟨v₂, w₂, hvw₂, by simp only [Span.cover]; omega, by simp only [Span.cover]; omega⟩
    · have hlast' := fun h => hlast (hlt.2.mpr h)
      exact ⟨t₂, u₂, htu₂, by simp only [Span.cover]; omega, by simp only [Span.cover]; omega⟩

end

/-! ## Two runs of the parser -/

/-- The tokens are of the same kind and spell the same. Their spans correspond as places
    of faults, and as spans in a tree unless they are `eof`. -/
structure Token.Like (S R : Span → Span → Prop) (src src' : Text) (t u : Token) : Prop where
  kind : t.kind = u.kind
  spells : ∃ text, t.lexeme? src = some text ∧ u.lexeme? src' = some text
  place : S t.span u.span
  inner : t.kind ≠ .eof → R t.span u.span

namespace Parser

/-- The same call with corresponding spans, as far as it has been read. -/
def Frame.Like (R : Span → Span → Prop) (f g : Frame) : Prop :=
  f.ident.Like R g.ident ∧ List.Forall₂ (Expr.Like R) f.args g.args

/-- The same phase with corresponding spans. -/
inductive Phase.Like (R : Span → Span → Prop) : Phase → Phase → Prop
  | count : Like R .count .count
  | bits (left : Nat) (gathered : List Bool) : Like R (.bits left gathered) (.bits left gathered)
  | operand (bits : List Bool) (fs gs : List Frame) (hfs : List.Forall₂ (Frame.Like R) fs gs) :
      Like R (.operand bits fs) (.operand bits gs)
  | named (bits : List Bool) (fs gs : List Frame) (i j : Ident)
      (hfs : List.Forall₂ (Frame.Like R) fs gs) (hi : i.Like R j) :
      Like R (.named bits fs i) (.named bits gs j)
  | opened (bits : List Bool) (fs gs : List Frame) (i j : Ident)
      (hfs : List.Forall₂ (Frame.Like R) fs gs) (hi : i.Like R j) :
      Like R (.opened bits fs i) (.opened bits gs j)
  | complete (bits : List Bool) (fs gs : List Frame) (e e' : Expr)
      (hfs : List.Forall₂ (Frame.Like R) fs gs) (he : e.Like R e') :
      Like R (.complete bits fs e) (.complete bits gs e')

variable {S R : Span → Span → Prop} {src src' : Text}

theorem wanting_like (left : Nat) (gathered : List Bool) :
    Phase.Like R (.wanting left gathered) (.wanting left gathered) := by
  unfold Phase.wanting
  split
  · exact .operand _ _ _ .nil
  · exact .bits _ _

theorem valueOf_like (t u : Token) (h : t.Like S R src src' u) :
    Alike S Eq (valueOf src t) (valueOf src' u) := by
  rcases h.spells with ⟨text, ht, hu⟩
  unfold valueOf
  rw [ht, hu]
  simp only
  cases Token.numberValue? text with
  | none => exact .fault _ _ ⟨rfl, h.place⟩
  | some n => exact .ok n n rfl

/-- The count and a bit are read in the same way, up to the bound and its cause. -/
theorem bounded_like (t u : Token) (h : t.Like S R src src' u) (bound : Nat) (c : Cause)
    (next : Nat → Phase) (hnext : ∀ n, Phase.Like R (next n) (next n)) :
    Alike S (Phase.Like R)
      (do let n ← valueOf src t
          if bound < n then .error (.fault ⟨c, t.span⟩) else .ok (next n))
      (do let n ← valueOf src' u
          if bound < n then .error (.fault ⟨c, u.span⟩) else .ok (next n)) := by
  refine (valueOf_like t u h).bind ?_
  rintro n _ rfl
  by_cases hn : bound < n
  · rw [if_pos hn, if_pos hn]
    exact .fault _ _ ⟨rfl, h.place⟩
  · rw [if_neg hn, if_neg hn]
    exact .ok _ _ (hnext n)

theorem takeIdent_like (t u : Token) (h : t.Like S R src src' u) (hk : t.kind = .ident)
    (bits : List Bool) (fs gs : List Frame) (hfs : List.Forall₂ (Frame.Like R) fs gs) :
    Alike S (Phase.Like R) (takeIdent src bits fs t) (takeIdent src' bits gs u) := by
  rcases h.spells with ⟨text, ht, hu⟩
  unfold takeIdent
  rw [ht, hu]
  have hspan := h.inner (by rw [hk]; decide)
  exact .ok _ _ (.named bits fs gs _ _ hfs ⟨rfl, hspan⟩)

/-- Behind an expression the runs end with it, or both complain about the token. -/
theorem refuseAfter_like (t u : Token) (h : t.Like S R src src' u) (bits : List Bool)
    (fs gs : List Frame) (hfs : List.Forall₂ (Frame.Like R) fs gs) (e e' : Expr)
    (he : e.Like R e') :
    Alike S (Program.Like R) (refuseAfter bits fs e t) (refuseAfter bits gs e' u) := by
  unfold refuseAfter
  rw [← h.kind]
  cases hfs with
  | nil =>
      simp only [List.isEmpty_nil, if_true]
      by_cases heof : t.kind = .eof
      · rw [if_pos heof, if_pos heof]
        exact .ok _ _ ⟨rfl, he⟩
      · rw [if_neg heof, if_neg heof]
        exact .fault _ _ ⟨rfl, h.place⟩
  | cons _ _ => exact .fault _ _ ⟨rfl, h.place⟩

/-- At a token that is not taken the runs end alike. -/
theorem refuse_like (t u : Token) (h : t.Like S R src src' u) (ph ph' : Phase)
    (hph : ph.Like R ph') : Alike S (Program.Like R) (refuse ph t) (refuse ph' u) := by
  -- A complaint is about the kind of the token, which is the same, at corresponding places.
  have hfault : ∀ c : Token.Kind → Cause, Fault.Like S ⟨c t.kind, t.span⟩ ⟨c u.kind, u.span⟩ :=
    fun c => ⟨by rw [h.kind], h.place⟩
  cases hph with
  | count => exact .fault _ _ (hfault _)
  | bits left gathered => exact .fault _ _ (hfault _)
  | operand bits fs gs hfs => exact .fault _ _ (hfault _)
  | named bits fs gs i j hfs hi =>
      exact refuseAfter_like t u h bits fs gs hfs _ _ (.var i j _ _ hi hi.2)
  | opened bits fs gs i j hfs hi => exact .fault _ _ (hfault _)
  | complete bits fs gs e e' hfs he => exact refuseAfter_like t u h bits fs gs hfs e e' he

section

variable (hcover : ∀ s s' r r', R s s' → R r r' → R (s.cover r) (s'.cover r'))

include hcover

theorem closeCall_like (t u : Token) (h : t.Like S R src src' u) (hk : t.kind = .rparen)
    (i j : Ident) (hi : i.Like R j) (es es' : List Expr)
    (hes : List.Forall₂ (Expr.Like R) es es') :
    (closeCall i es t).Like R (closeCall j es' u) := by
  -- The parenthesis is a token of the source, so its span may stand in a tree.
  have hspan := h.inner (by rw [hk]; decide)
  exact .call i j _ _ _ _ hi (hcover _ _ _ _ hi.2 hspan) (List.rel_reverse hes)

/-- Behind an expression a token is taken in both runs or in neither. -/
theorem takeAfter?_like (t u : Token) (h : t.Like S R src src' u) (bits : List Bool)
    (fs gs : List Frame) (hfs : List.Forall₂ (Frame.Like R) fs gs) (e e' : Expr)
    (he : e.Like R e') :
    Option.Rel (Alike S (Phase.Like R)) (takeAfter? bits fs e t) (takeAfter? bits gs e' u) := by
  have hku := h.kind
  cases hfs with
  | nil => exact .none
  | @cons f g fs gs hf hfs =>
      by_cases hcomma : t.kind = .comma
      · rw [takeAfter?_comma bits f fs e t hcomma,
          takeAfter?_comma bits g gs e' u (hku ▸ hcomma)]
        exact .some (.ok _ _ (.operand bits _ _ (.cons ⟨hf.1, .cons he hf.2⟩ hfs)))
      by_cases hrparen : t.kind = .rparen
      · rw [takeAfter?_rparen bits f fs e t hrparen,
          takeAfter?_rparen bits g gs e' u (hku ▸ hrparen)]
        have hclose := closeCall_like hcover t u h hrparen _ _ hf.1 _ _ (.cons he hf.2)
        exact .some (.ok _ _ (.complete bits _ _ _ _ hfs hclose))
      · -- Only a comma and a closing parenthesis are taken inside a call.
        unfold takeAfter?
        rw [← hku]
        split <;> simp_all

/-- A token is taken in both runs or in neither, and then with what is alike. -/
theorem take?_like (t u : Token) (h : t.Like S R src src' u) (ph ph' : Phase)
    (hph : ph.Like R ph') :
    Option.Rel (Alike S (Phase.Like R)) (take? src ph t) (take? src' ph' u) := by
  have hku := h.kind
  cases hph with
  | count =>
      rw [take?, take?, ← hku]
      split
      · exact .some (bounded_like t u h maxArgs _ _ fun n => wanting_like n [])
      · exact .none
  | bits left gathered =>
      rw [take?, take?, ← hku]
      split
      · exact .some (bounded_like t u h 1 _ _ fun n => wanting_like _ _)
      · exact .none
  | operand bits fs gs hfs =>
      rw [take?, take?, ← hku]
      split
      · next hk => exact .some (takeIdent_like t u h hk bits fs gs hfs)
      · exact .none
  | named bits fs gs i j hfs hi =>
      rw [take?, take?, ← hku]
      split
      · exact .some (.ok _ _ (.opened bits fs gs i j hfs hi))
      · exact takeAfter?_like hcover t u h bits fs gs hfs _ _ (.var i j _ _ hi hi.2)
  | opened bits fs gs i j hfs hi =>
      rw [take?, take?, ← hku]
      split
      · next hk =>
        have hclose := closeCall_like hcover t u h hk i j hi [] [] .nil
        exact .some (.ok _ _ (.complete bits fs gs _ _ hfs hclose))
      · split
        · next hk =>
          exact .some (takeIdent_like t u h hk bits _ _ (.cons ⟨hi, .nil⟩ hfs))
        · exact .none
  | complete bits fs gs e e' hfs he => exact takeAfter?_like hcover t u h bits fs gs hfs e e' he

/-- Runs over tokens that are alike end alike, by induction on the tokens. -/
theorem drive_like (hend : Token.Like S R src src' (.endAt src.length) (.endAt src'.length))
    (ts us : List Token) (h : List.Forall₂ (Token.Like S R src src') ts us) :
    ∀ ph ph' : Phase, ph.Like R ph' →
      Alike S (Program.Like R) (drive src ph ts).1 (drive src' ph' us).1 := by
  induction h with
  | nil =>
      intro ph ph' hph
      exact refuse_like _ _ hend ph ph' hph
  | @cons t u ts us htu _ ih =>
      intro ph ph' hph
      have hstep := take?_like hcover t u htu ph ph' hph
      rw [drive, drive]
      -- What the step comes to is all that matters of it from here on.
      generalize take? src ph t = x, take? src' ph' u = y at hstep
      cases hstep with
      | none => exact refuse_like t u htu ph ph' hph
      | some hout =>
          cases hout with
          | ok next next' hnext => exact ih next next' hnext
          | fault f g hfg => exact .fault f g hfg

end

end Parser

/-! ## All answers -/

@[simp]
theorem Token.lexeme?_endAt (src : Text) : (Token.endAt src.length).lexeme? src = some [] := by
  have hend := Token.lexeme?_of_span (.endAt src.length) src [] [] rfl
  rw [List.append_nil, List.append_nil] at hend
  exact hend

/-- The last tokens of two sources are alike if they stand at the same index. -/
theorem endAt_like (R : Span → Span → Prop) (src src' : Text) (body body' : List Token)
    (hlen : body.length = body'.length) :
    Token.Like (SameToken (body ++ [.endAt src.length]) (body' ++ [.endAt src'.length])) R src src'
      (.endAt src.length) (.endAt src'.length) := by
  -- The bodies are of one length, so what is behind them is at one index.
  have hlast : (body' ++ [.endAt src'.length])[body.length]? = some (.endAt src'.length) := by
    rw [hlen]
    exact List.getElem?_concat_length ..
  exact ⟨rfl, ⟨[], Token.lexeme?_endAt src, Token.lexeme?_endAt src'⟩,
    ⟨_, _, ⟨body.length, List.getElem?_concat_length .., hlast⟩, rfl, rfl⟩,
    fun heof => absurd rfl heof⟩

/-- Tokens of the same types and spellings are alike. Their spans correspond within the
    lists, whatever follows behind these. -/
theorem called_like (src src' : Text) (body body' more more' : List Token)
    (h : List.Forall₂ (fun t u => t.kind.plain = u.kind.plain ∧ t.lexeme? src = u.lexeme? src')
      body body') (hbody : ∀ t ∈ body, t.Called src) (hbody' : ∀ t ∈ body', t.Called src') :
    List.Forall₂ (Token.Like (SameToken (body ++ more) (body' ++ more')) (Between body body')
      src src') body body' := by
  rw [List.forall₂_iff_get] at h ⊢
  refine ⟨h.1, fun i hi hi' => ?_⟩
  rcases h.2 i hi hi' with ⟨hplain, hspell⟩
  have ht := hbody _ (List.get_mem body ⟨i, hi⟩)
  have hu := hbody' _ (List.get_mem body' ⟨i, hi'⟩)
  have hindex : SameIndex body body' (body.get ⟨i, hi⟩) (body'.get ⟨i, hi'⟩) :=
    ⟨i, List.getElem?_eq_getElem hi, List.getElem?_eq_getElem hi'⟩
  refine ⟨Token.kind_of_plain src src' _ _ ht hu hplain hspell, ?_,
    ⟨_, _, sameIndex_append _ _ hindex, rfl, rfl⟩,
    fun _ => between_of_sameToken _ _ _ _ ⟨_, _, hindex, rfl, rfl⟩⟩
  rcases ht with ⟨before, text, after, rfl, hspan, -⟩
  have htext := Token.lexeme?_of_span _ before text after hspan
  exact ⟨text, htext, hspell.symm.trans htext⟩

/-- The programs of sources that are spaced differently are alike, or the same token is
    at fault. Spans in the programs can be told apart on both sides or on neither. -/
theorem parse_like (src src' : Text) (h : Respaced src src') :
    ∃ R : Span → Span → Prop, (∀ s s', R s s' → Between (lex src) (lex src') s s') ∧
      (∀ s s' r r', R s s' → R r r' → (s = r ↔ s' = r')) ∧
      Alike (SameToken (lex src) (lex src')) (Program.Like R) (parse src) (parse src') := by
  rcases lex_ordered src with ⟨body, hlex, hordered, hbody⟩
  rcases lex_ordered src' with ⟨body', hlex', hordered', hbody'⟩
  rw [Respaced, hlex, hlex'] at h
  -- The lists of tokens are of one length, and so are they without the last.
  have hlen := h.length_eq
  rw [List.length_append, List.length_append, List.length_singleton, List.length_singleton,
    Nat.add_right_cancel_iff] at hlen
  have hpairs := List.forall₂_take_append _ body' _ h
  rw [← hlen, List.take_left] at hpairs
  -- Spans in a tree do not reach `eof`, which may end where the token before it does.
  refine ⟨Between body body', ?_, between_eq_iff hordered hordered', ?_⟩
  · rw [hlex, hlex']
    exact between_append _ _
  · have hend := endAt_like (Between body body') src src' body body' hlen
    have hcalled := called_like src src' body body' [.endAt src.length] [.endAt src'.length]
      hpairs hbody hbody'
    rw [parse_eq_drive, parse_eq_drive, hlex, hlex']
    exact Parser.drive_like (between_cover hordered hordered') hend _ _
      (List.rel_append hcalled (.cons hend .nil)) _ _ .count

/-- Sources that have the same tokens, however they are spaced, have the same answers.
    They are parsed as programs that are equal up to corresponding spans, or fail for the
    same cause at tokens of the same index. They have the same value, the same list of
    faults and the same text, or again fail for the same cause, and spans that are
    reported run from tokens of one index to tokens of one index. -/
theorem layout_leaves_no_trace (src src' : Text) (h : Respaced src src') :
    Alike (SameToken (lex src) (lex src')) (Program.Like (Between (lex src) (lex src')))
      (parse src) (parse src') ∧
    Alike (Between (lex src) (lex src')) Eq (evaluate src) (evaluate src') ∧
    Alike (Between (lex src) (lex src'))
      (List.Forall₂ (Fault.Like (Between (lex src) (lex src')))) (check src) (check src') ∧
    Alike (Between (lex src) (lex src')) Eq (compile src) (compile src') := by
  rcases parse_like src src' h with ⟨R, hR, hfaithful, hparse⟩
  refine ⟨hparse.mono (fun _ _ h => h) fun p q hpq => ⟨hpq.1, hpq.2.imp hR⟩, ?_⟩
  -- A source that is parsed has not too many bits, which is what the later stages ask.
  have hparsed := (hparse.mono (between_of_sameToken _ _) fun _ _ h => h).and_left
    (length_args_of_parse src)
  refine ⟨hparsed.bind ?_, hparsed.bind ?_, hparsed.bind ?_⟩
  · rintro p q ⟨hpq, hargs⟩
    exact (Program.eval_like p q hpq hargs).mono hR fun _ _ h => h
  · rintro p q ⟨hpq, hargs⟩
    rcases Program.check_like hfaithful p q hpq hargs with ⟨fs, gs, hp, hq, hlike⟩
    rw [hp, hq]
    exact .ok fs gs (hlike.imp fun _ _ h => ⟨h.1, hR _ _ h.2⟩)
  · rintro p q ⟨hpq, -⟩
    exact (Program.compile_like p q hpq).mono hR fun _ _ h => h

/-- A program with faults in it, on one line. -/
def tight : Text := Text.ofString "1 1 or(A,not(B,C))"

/-- The same program, spread out. -/
def loose : Text := Text.ofString "1\n1\n or ( A ,\n  not (B, C) )\n"

theorem respaced_tight_loose : Respaced tight loose := by
  have hpairs : ∀ p ∈ (lex tight).zip (lex loose), p.1.kind.plain = p.2.kind.plain ∧
      p.1.lexeme? tight = p.2.lexeme? loose := by decide +kernel
  exact List.forall₂_iff_zip.mpr ⟨by decide +kernel, fun {t u} h => hpairs (t, u) h⟩

theorem layout_leaves_no_trace_tight_loose : Respaced tight loose ∧
    Alike (SameToken (lex tight) (lex loose)) (Program.Like (Between (lex tight) (lex loose)))
      (parse tight) (parse loose) ∧
    Alike (Between (lex tight) (lex loose)) Eq (evaluate tight) (evaluate loose) ∧
    Alike (Between (lex tight) (lex loose))
      (List.Forall₂ (Fault.Like (Between (lex tight) (lex loose)))) (check tight) (check loose) ∧
    Alike (Between (lex tight) (lex loose)) Eq (compile tight) (compile loose) :=
  ⟨respaced_tight_loose, layout_leaves_no_trace tight loose respaced_tight_loose⟩

end BitLogic
