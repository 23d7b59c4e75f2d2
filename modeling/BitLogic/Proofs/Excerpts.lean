import BitLogic.Proofs.Nesting
import BitLogic.Proofs.Seams

/-!
# Excerpts of a Source

A node of a parsed tree can be cut out of the source and parsed alone. The text at its span
is a program without bits, once a count of zero stands in front of it, and the tree of that
program is the node, moved to where the text stands now.

Two runs of the lexer and the parser on different texts are behind this, and neither is
followed here. The tokens of a node are a part of the tokens of the source
(`derives_of_node`), and they begin and end where the node does (`span_of_derives`). So the
text at the span is a slice between tokens, whose tokens are known, and the blank behind
the count is a seam. What is left is a derivation over other tokens, which are the same ones
moved and still spell the same (`derives_shift`).

## Main definitions

* `Ident.shift`, `Expr.shift`: A name or a tree moved by a number of bytes.
* `Grammar.Phrase.shift`: The same for a phrase.

## Theorems

* `Span.shift_cover`: Moving a span that covers two others.
* `Grammar.derives_shift`: A derivation over tokens that have moved.
* `Grammar.derives_of_node`: Every node of a derived phrase is derived from a part of
  its tokens.
* `Grammar.span_of_derives`: An expression lies from its first token to its last.
* `tokens_of_node`: Where the tokens of a node are among those of the source.
* `lexeme?_of_slice`: The tokens of a slice spell the same behind another text.
* `lex_counted`: The tokens behind a count of zero.
* `parse_counted`: A derived expression behind a count of zero is a program.
* `excerpts_parse_alone`: Every node of a parsed tree can be parsed alone.
* `excerpts_parse_alone_inset`: The inner one of two calls.
-/

namespace BitLogic

/-! ## Moved trees -/

/-- The name moved by a number of bytes. -/
def Ident.shift (d : Int) (id : Ident) : Ident := ⟨id.name, id.span.shift d⟩

/-- The tree with the span of every node and every name moved by a number of bytes. -/
def Expr.shift (d : Int) : Expr → Expr
  | .var id s => .var (id.shift d) (s.shift d)
  | .call id args s => .call (id.shift d) (args.map (shift d)) (s.shift d)
  | .blank s => .blank (s.shift d)

/-- A span that covers two others covers them where they are moved to. -/
theorem Span.shift_cover (d : Int) (s t : Span) :
    (s.cover t).shift d = (s.shift d).cover (t.shift d) := by
  simp only [shift, cover, mk.injEq]
  omega

namespace Grammar

/-- The phrase moved by a number of bytes. -/
def Phrase.shift (d : Int) : Phrase → Phrase
  | .expr e => .expr (e.shift d)
  | .args es => .args (es.map (Expr.shift d))
  | .more es => .more (es.map (Expr.shift d))

/-- A derivation over tokens that have moved, in a source where they spell the same. -/
theorem derives_shift (src src' : Text) (d : Int) (phrase : Phrase) (ts : List Token)
    (h : Derives src phrase ts) (hspell : ∀ t ∈ ts, (t.shift d).lexeme? src' = t.lexeme? src) :
    Derives src' (phrase.shift d) (ts.map (Token.shift d)) := by
  -- By induction on the derivation. A rule looks at the kinds of tokens, which do not move,
  -- and at the spelling of names.
  induction h with
  | var t name ht =>
      have hname : IsName src' (t.shift d) name :=
        ⟨ht.1, (hspell t List.mem_cons_self).trans ht.2⟩
      rw [Phrase.shift, Expr.shift]
      exact .var (t.shift d) name hname
  | call t o c name ts es ht ho _ hc ih =>
      rw [List.forall_mem_cons, List.forall_mem_cons, List.forall_mem_append] at hspell
      rcases hspell with ⟨hspell, -, hts, -⟩
      have hname : IsName src' (t.shift d) name := ⟨ht.1, hspell.trans ht.2⟩
      have hcall := Derives.call (t.shift d) (o.shift d) (c.shift d) name _ _ hname ho (ih hts) hc
      rw [Phrase.shift, Expr.shift, Span.shift_cover, List.map_cons, List.map_cons,
        List.map_append]
      exact hcall
  | noArgs => exact .noArgs
  | args e es ts us _ _ ihe ihmore =>
      rw [List.forall_mem_append] at hspell
      rw [Phrase.shift, List.map_cons, List.map_append]
      exact .args _ _ _ _ (ihe hspell.1) (ihmore hspell.2)
  | noMore => exact .noMore
  | more c e es ts us hc _ _ ihe ihmore =>
      rw [List.forall_mem_cons, List.forall_mem_append] at hspell
      rw [Phrase.shift, List.map_cons, List.map_cons, List.map_append]
      exact .more (c.shift d) _ _ _ _ hc (ihe hspell.2.1) (ihmore hspell.2.2)

/-! ## The tokens of a node -/

/-- Every node of a derived phrase is derived itself, from tokens that stand together. -/
theorem derives_of_node (src : Text) (phrase : Phrase) (ts : List Token)
    (h : Derives src phrase ts) : ∀ e ∈ phrase.exprs, ∀ n ∈ e.nodes,
      ∃ us, us <:+: ts ∧ Derives src (.expr n) us := by
  -- By induction on the derivation. What is derived from a part of the tokens has all its
  -- nodes in that part, so only a name and a call are new.
  induction h with
  | var t name ht =>
      rw [Phrase.exprs, List.forall_mem_singleton, Expr.nodes_var, List.forall_mem_singleton]
      exact ⟨[t], List.infix_rfl, .var t name ht⟩
  | call t o c name ts es ht ho hargs hc ih =>
      rw [Phrase.exprs, List.forall_mem_singleton, Expr.forall_nodes_call]
      constructor
      · exact ⟨_, List.infix_rfl, .call t o c name ts es ht ho hargs hc⟩
      · -- A node below the call has its tokens between the parentheses.
        intro a ha n hn
        rcases ih a ha n hn with ⟨us, hin, hus⟩
        exact ⟨us, hin.trans ⟨[t, o], [c], rfl⟩, hus⟩
  | noArgs => exact List.forall_mem_nil _
  | args e es ts us _ _ ihe ihmore =>
      rw [Phrase.exprs, List.forall_mem_cons]
      constructor
      · intro n hn
        rcases ihe e List.mem_cons_self n hn with ⟨vs, hin, hvs⟩
        exact ⟨vs, hin.trans (List.prefix_append ts us).isInfix, hvs⟩
      · intro a ha n hn
        rcases ihmore a ha n hn with ⟨vs, hin, hvs⟩
        exact ⟨vs, hin.trans (List.suffix_append ts us).isInfix, hvs⟩
  | noMore => exact List.forall_mem_nil _
  | more c e es ts us hc _ _ ihe ihmore =>
      rw [Phrase.exprs, List.forall_mem_cons]
      constructor
      · intro n hn
        rcases ihe e List.mem_cons_self n hn with ⟨vs, hin, hvs⟩
        exact ⟨vs, hin.trans ⟨[c], us, rfl⟩, hvs⟩
      · intro a ha n hn
        rcases ihmore a ha n hn with ⟨vs, hin, hvs⟩
        exact ⟨vs, hin.trans (List.suffix_append (c :: ts) us).isInfix, hvs⟩

/-- An expression lies from the start of its first token to the end of its last. -/
theorem span_of_derives (src : Text) (e : Expr) (ts : List Token) (lo hi : Int)
    (h : Derives src (.expr e) ts) (hin : Token.InOrder lo hi ts) :
    ∃ t u, ts.head? = some t ∧ ts.getLast? = some u ∧ e.span = ⟨t.span.start, u.span.stop⟩ := by
  cases h with
  | var t name ht => exact ⟨t, t, rfl, rfl, rfl⟩
  | call t o c name ts es ht ho hargs hc =>
      rcases hin with ⟨hlo, hne, hopen, hone, hrest⟩
      rcases (Token.inOrder_append hi ts [c] _).mp hrest with ⟨mid, hts, hcs, hcne, hhi⟩
      have hle := hts.le
      refine ⟨t, c, rfl, ?_, ?_⟩
      · rw [← List.cons_append, ← List.cons_append, List.getLast?_concat]
      · exact Span.cover_of_le t.span c.span (by omega) (by omega)

end Grammar

/-- The tokens of a node stand together among those of the source, and the node lies from
    the first of them to the last. -/
theorem tokens_of_node (src : Text) (p : Program) (e : Expr) (h : parse src = .ok p)
    (he : e ∈ p.expr.nodes) :
    ∃ xs us ys t u, lex src = xs ++ us ++ ys ∧ Grammar.Derives src (.expr e) us ∧
      us.head? = some t ∧ us.getLast? = some u ∧ u.kind ≠ .eof ∧
      e.span = ⟨t.span.start, u.span.stop⟩ := by
  rcases lex_inOrder src with ⟨body, hlex, hin, hbody⟩
  rw [parse_eq_ok_iff, hlex] at h
  generalize hall : body ++ [Token.endAt src.length] = all at h
  cases h with
  | mk bits root hs ts z hhead hroot hz =>
      rcases Grammar.derives_of_node src _ ts hroot root List.mem_cons_self e he with
        ⟨us, ⟨before, after, hsplit⟩, hus⟩
      have hbody' : body = hs ++ before ++ us ++ after := by
        rw [(List.append_inj' hall rfl).1, ← hsplit]
        simp only [List.append_assoc]
      -- The tokens of a source are in order, and so are those of the node.
      rw [hbody'] at hin hbody
      rcases (Token.inOrder_append _ (hs ++ before ++ us) after 0).mp hin with ⟨hi, hin, -⟩
      rcases (Token.inOrder_append _ (hs ++ before) us 0).mp hin with ⟨lo, -, hin⟩
      rcases Grammar.span_of_derives src e us lo hi hus hin with ⟨t, u, ht, hu, hspan⟩
      have hmem : u ∈ hs ++ before ++ us ++ after :=
        List.mem_append_left _ (List.mem_append_right _ (List.mem_of_mem_getLast? hu))
      refine ⟨hs ++ before, us, after ++ [.endAt src.length], t, u, ?_, hus, ht, hu,
        (hbody u hmem).1, hspan⟩
      rw [hlex, hbody']
      simp only [List.append_assoc]

/-! ## A node by itself -/

/-- The tokens of a slice spell the same where the slice is put behind another text. -/
theorem lexeme?_of_slice (src text front : Text) (lo hi : Int) (us : List Token)
    (hslice : src.slice? lo hi = some text)
    (htext : lex text = us.map (Token.shift (-lo)) ++ [.endAt text.length]) :
    ∀ t ∈ us, (t.shift (front.length - lo)).lexeme? (front ++ text) = t.lexeme? src := by
  intro t ht
  rcases lex_inOrder text with ⟨body, hlex, -, hbody⟩
  -- Where the token was moved to, it is a token of the slice.
  have hcalled : (t.shift (-lo)).Called text := by
    refine (hbody _ ?_).2
    rw [(List.append_inj' (hlex.symm.trans htext) rfl).1]
    exact List.mem_map_of_mem ht
  rcases (Text.slice?_eq_some_iff _ _ _ _).mp hslice with ⟨before, after, rfl, hlo, -⟩
  -- Both sources have the slice in them, and the token is where it is in the slice.
  rcases hcalled.lexeme?_shift before after with ⟨name, hname, hinner⟩
  rcases hcalled.lexeme?_shift front [] with ⟨name', hname', hinner'⟩
  rw [hinner, Option.some.injEq] at hinner'
  rw [Token.shift_shift, ← hlo, Int.add_left_neg, Token.shift_zero] at hname
  rw [Token.shift_shift, List.append_nil, Int.add_comm, ← Int.sub_eq_add_neg] at hname'
  rw [hname', hname, hinner']

/-- The tokens of a text behind a count of zero and a blank. -/
theorem lex_counted (text : Text) : lex (Text.ofString "0 " ++ text) =
    ⟨.number, ⟨0, 1⟩⟩ :: (lex text).map (Token.shift 2) := by
  -- The blank behind the count is a seam.
  rcases lex_seam [48] text 32 rfl with ⟨body, hbody, hseam⟩
  have hcount : lex [48] = [⟨.number, ⟨0, 1⟩⟩] ++ [.endAt 1] := by decide +kernel
  rw [hcount] at hbody
  rw [← (List.append_inj' hbody rfl).1] at hseam
  exact hseam

/-- A text that is derived as an expression behind a count of zero is a program without
    bits there. -/
theorem parse_counted (text : Text) (e : Expr) (ts : List Token)
    (htext : lex text = ts ++ [.endAt text.length])
    (h : Grammar.Derives (Text.ofString "0 " ++ text) (.expr e) (ts.map (Token.shift 2))) :
    parse (Text.ofString "0 " ++ text) = .ok ⟨[], e⟩ := by
  have hzero : Grammar.IsNumber (Text.ofString "0 " ++ text) ⟨.number, ⟨0, 1⟩⟩ 0 :=
    ⟨rfl, [48], Token.lexeme?_of_span ⟨.number, ⟨0, 1⟩⟩ [] [48] (32 :: text) rfl, by decide⟩
  have hhead : Grammar.DerivesHead (Text.ofString "0 " ++ text) [] [⟨.number, ⟨0, 1⟩⟩] :=
    .mk _ [] [] hzero (Nat.zero_le _) .nil
  rw [parse_eq_ok_iff, lex_counted, htext, List.map_append]
  exact .mk [] e _ _ _ hhead h rfl

/-- Every node of a parsed tree can be cut out of the source and parsed alone, behind a count
    of zero. What comes of it is the node, moved to where its text stands now. -/
theorem excerpts_parse_alone (src : Text) (p : Program) (e : Expr) (h : parse src = .ok p)
    (he : e ∈ p.expr.nodes) :
    ∃ text, src.slice? e.span.start e.span.stop = some text ∧
      parse (Text.ofString "0 " ++ text) = .ok ⟨[], e.shift (2 - e.span.start)⟩ := by
  rcases tokens_of_node src p e h he with ⟨xs, us, ys, t, u, hlex, hus, ht, hu, hne, hspan⟩
  rcases lex_slice src xs us ys t u hlex ht hu hne with ⟨text, hslice, htext⟩
  -- The tokens of the node spell behind the count what they spell in the source.
  have hspell := lexeme?_of_slice src text (Text.ofString "0 ") _ _ us hslice htext
  have hmoved := Grammar.derives_shift src _ _ _ us hus hspell
  rw [hspan]
  refine ⟨text, hslice, parse_counted text _ _ htext ?_⟩
  -- The tokens have moved to the start of the text, and from there behind the count.
  have htwice : (us.map (Token.shift (-t.span.start))).map (Token.shift 2) =
      us.map (Token.shift (2 - t.span.start)) := by
    rw [List.map_map]
    refine List.map_congr_left fun v _ => ?_
    rw [Function.comp_apply, Token.shift_shift, Int.add_comm, Int.sub_eq_add_neg]
  rw [htwice]
  exact hmoved

/-- The negation inside the call can be cut out, blanks and all. -/
theorem excerpts_parse_alone_inset :
    parse inset = .ok insetProgram ∧
    .call ⟨Text.ofString "not", ⟨10, 13⟩⟩ [.var ⟨Text.ofString "B", ⟨15, 16⟩⟩ ⟨15, 16⟩] ⟨10, 18⟩ ∈
      insetProgram.expr.nodes ∧
    ∃ text, inset.slice? 10 18 = some text ∧
      parse (Text.ofString "0 " ++ text) = .ok ⟨[], Expr.shift (2 - 10)
        (.call ⟨Text.ofString "not", ⟨10, 13⟩⟩ [.var ⟨Text.ofString "B", ⟨15, 16⟩⟩ ⟨15, 16⟩]
          ⟨10, 18⟩)⟩ := by
  have hnode : Expr.call ⟨Text.ofString "not", ⟨10, 13⟩⟩
      [.var ⟨Text.ofString "B", ⟨15, 16⟩⟩ ⟨15, 16⟩] ⟨10, 18⟩ ∈ insetProgram.expr.nodes :=
    .tail _ (.tail _ (.head _))
  exact ⟨parse_inset, hnode, excerpts_parse_alone inset insetProgram _ parse_inset hnode⟩

end BitLogic
