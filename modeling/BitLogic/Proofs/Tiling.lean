import BitLogic.Proofs.Characters
import BitLogic.Proofs.Lexing
import BitLogic.Proofs.Slices

/-!
# Raw Tokens Tile the Source

What the lexer makes of a source, said without the lexer, for every list of bytes.

The raw tokens, blanks included, cover the source from its first byte to its last
without gap or overlap. Each of them is of the kind that its bytes call for, and no run
of blanks, digits or letters is cut in two. `Tokenizes` puts this together, and it leaves
no choice: a source has one such list of tokens, and it is the list that the lexer reads.

The properties speak of the list as a whole, while the lexer sees one token at a time.
`tokenizes_iff` takes a list apart at its first token, and the rest of the argument is
about that one. The kind that the bytes call for and the kind that the lexer gives are
the same, and so is the length, as long as a run is not followed by a byte of its class.
That last condition is what "not cut in two" says about a token and its successor, since
the first byte of the successor decides its kind.

Without the blanks the tokens no longer cover the source, but they still stand one behind
the other. `Token.InOrder` keeps that much.

## Main definitions

* `Token.Kind.run?`: The class of bytes that tokens of a kind are runs of.
* `CallsFor`: A text, in front of another, calls for a kind of token.
* `Token.Called`: The kind of a token is what its bytes call for.
* `Token.Tiles`: Tokens cover a range of offsets without gap or overlap.
* `Tokenizes`: The tokens of a source from an offset on.
* `Lexer.Scans`: Raw tokens read one after the other.
* `Token.InOrder`: Tokens one behind the other in a range of offsets.

## Theorems

* `CallsFor.ne_nil`, `CallsFor.ne_eof`: Every token but the end has bytes.
* `Token.lexeme?_of_span`: What a token spells are the bytes that called for it.
* `isChain_apart_cons`, `tokenizes_end`, `tokenizes_cons`: Tokens are put together from
  behind.
* `tokenizes_iff`: The tokens from an offset on, by the first of them.
* `CallsFor.of_run`: The first byte of a run is of its class.
* `Lexer.classify_run`, `Lexer.classify_stray`, `Lexer.byte_cases`: What the first byte
  of a token can be, and what the lexer makes of it.
* `Lexer.classify_callsFor`, `Lexer.classify_of_callsFor`: The lexer gives the kind that
  is called for.
* `Lexer.kind_of_first`: The first byte decides the kind.
* `stopsAt_iff`: Where a run stops, by the token behind it.
* `Lexer.raw_eq`, `Lexer.raw_done`, `Lexer.raw_nil`, `Lexer.raw_token`: Reading raw
  tokens.
* `Lexer.tokenizes_iff_raw`: The only tokens of a source are those that the lexer reads.
* `Lexer.run_eq_filter_raw`: Tokens are raw tokens without the blanks.
* `Lexer.scans_raw`: Reading raw tokens comes to an end.
* `lexemes_of_tokenizes`: Tokens that cover a source spell it.
* `Token.InOrder.le`, `Token.InOrder.mono`, `Token.InOrder.bounds`,
  `Token.InOrder.filter`: Tokens that are in order.
* `Token.inOrder_append`: Splitting tokens splits their range.
* `Token.inOrder_of_tiles`: Tokens that cover a range are in order.
* `lex_inOrder`: The tokens of a source are in order.
* `lexer_tiles_uniquely`: What the lexer makes of a source.
-/

namespace BitLogic

/-- The class of bytes that tokens of a kind are runs of. -/
def Token.Kind.run? : Token.Kind → Option (UInt8 → Bool)
  | .whitespace => some Lexer.isSpace
  | .number => some Token.isDigit
  | .ident => some Lexer.isLetter
  | _ => none

/-- A byte that no blank, number, name or sign starts with. -/
def Stray (b : UInt8) : Prop :=
  Lexer.isSpace b = false ∧ Token.isDigit b = false ∧ Lexer.isLetter b = false ∧
    b ≠ 40 ∧ b ≠ 41 ∧ b ≠ 44

/-- The kind of token that a text calls for, given what stands behind it: a run of a
    class, a sign, or the one other character that is read there. -/
inductive CallsFor : Text → Text → Token.Kind → Prop
  | run (k : Token.Kind) (p : UInt8 → Bool) (text after : Text) (hk : k.run? = some p)
      (hne : text ≠ []) (hall : text.all p = true) : CallsFor text after k
  | lparen (after : Text) : CallsFor [40] after .lparen
  | rparen (after : Text) : CallsFor [41] after .rparen
  | comma (after : Text) : CallsFor [44] after .comma
  | other (b : UInt8) (s after : Text) (code : Nat) (hb : Stray b)
      (h : Utf8.Yields (b :: s ++ after) code (b :: s).length) :
      CallsFor (b :: s) after (.unexpected code)

namespace Token

/-- The kind of the token is the one that its bytes call for. -/
def Called (src : Text) (t : Token) : Prop :=
  ∃ before text after, src = before ++ text ++ after ∧
    t.span = ⟨before.length, before.length + text.length⟩ ∧ CallsFor text after t.kind

/-- The tokens cover the offsets from `lo` to `hi` without gap or overlap. -/
def Tiles : Int → Int → List Token → Prop
  | lo, hi, [] => lo = hi
  | lo, hi, t :: ts => t.span.start = lo ∧ Tiles t.span.stop hi ts

/-- Two neighbours are not two parts of one run. -/
def Apart (t u : Token) : Prop := t.kind.run?.isSome = true → t.kind ≠ u.kind

end Token

/-- The tokens of a source from an offset on. They cover it, each is of the kind that its
    bytes call for, the last is the only `eof` and the only empty one, and no run is cut
    in two. -/
structure Tokenizes (src : Text) (n : Nat) (ts : List Token) : Prop where
  tiles : Token.Tiles n src.length ts
  ends : ∃ body, ts = body ++ [.endAt src.length] ∧
    ∀ t ∈ body, t.kind ≠ .eof ∧ t.span.start < t.span.stop ∧ t.Called src
  apart : ts.IsChain Token.Apart

/-- Nothing is called for by no bytes. -/
theorem CallsFor.ne_nil {text after : Text} {k : Token.Kind} (h : CallsFor text after k) :
    text ≠ [] := by
  cases h with
  | run _ p _ _ hk hne hall => exact hne
  | lparen => exact List.cons_ne_nil _ _
  | rparen => exact List.cons_ne_nil _ _
  | comma => exact List.cons_ne_nil _ _
  | other b s _ code hb h => exact List.cons_ne_nil _ _

theorem CallsFor.ne_eof {text after : Text} {k : Token.Kind} (h : CallsFor text after k) :
    k ≠ .eof := by
  cases h with
  | run _ p _ _ hk hne hall =>
      rintro rfl
      simp only [Token.Kind.run?, reduceCtorEq] at hk
  | lparen => simp only [ne_eq, reduceCtorEq, not_false_eq_true]
  | rparen => simp only [ne_eq, reduceCtorEq, not_false_eq_true]
  | comma => simp only [ne_eq, reduceCtorEq, not_false_eq_true]
  | other b s _ code hb h => simp only [ne_eq, reduceCtorEq, not_false_eq_true]

/-- What a token spells are the bytes that called for it. -/
theorem Token.lexeme?_of_span (t : Token) (before text after : Text)
    (h : t.span = ⟨before.length, before.length + text.length⟩) :
    t.lexeme? (before ++ text ++ after) = some text := by
  rw [Token.lexeme?, h]
  exact Text.slice?_middle before text after

theorem isChain_apart_cons (t : Token) (ts : List Token) : (t :: ts).IsChain Token.Apart ↔
    (∀ u, ts.head? = some u → t.Apart u) ∧ ts.IsChain Token.Apart := by
  cases ts with
  | nil => simp
  | cons u us => simp [List.isChain_cons_cons]

theorem tokenizes_end (src : Text) : Tokenizes src src.length [.endAt src.length] :=
  ⟨⟨rfl, rfl⟩, ⟨[], rfl, List.forall_mem_nil _⟩, .singleton _⟩

/-- A token in front of the tokens from its end on. -/
theorem tokenizes_cons (before text rest : Text) (k : Token.Kind) (us : List Token)
    (hcall : CallsFor text rest k)
    (hnext : ∀ u, us.head? = some u → k.run?.isSome = true → k ≠ u.kind)
    (h : Tokenizes (before ++ (text ++ rest)) (before ++ text).length us) :
    Tokenizes (before ++ (text ++ rest)) before.length
      (⟨k, ⟨before.length, before.length + text.length⟩⟩ :: us) := by
  rcases h with ⟨htiles, ⟨body, rfl, hbody⟩, hapart⟩
  refine ⟨⟨rfl, ?_⟩, ⟨_ :: body, rfl, ?_⟩, (isChain_apart_cons _ _).mpr ⟨hnext, hapart⟩⟩
  · rw [List.length_append, Int.natCast_add] at htiles
    exact htiles
  · have hpos := List.length_pos_iff.mpr hcall.ne_nil
    rw [List.forall_mem_cons]
    refine ⟨⟨hcall.ne_eof, ?_, before, text, rest, ?_, rfl, hcall⟩, hbody⟩
    · simp only
      omega
    · rw [List.append_assoc]

/-- The tokens from an offset on, by the first of them: there is none left but `eof`, or
    the first is called for by its bytes, does not belong to one run with the second, and
    the others are the tokens from its end on. -/
theorem tokenizes_iff (before after : Text) (ts : List Token) :
    Tokenizes (before ++ after) before.length ts ↔
      (after = [] ∧ ts = [.endAt before.length]) ∨
      ∃ text rest k us, after = text ++ rest ∧
        ts = ⟨k, ⟨before.length, before.length + text.length⟩⟩ :: us ∧ CallsFor text rest k ∧
        (∀ u, us.head? = some u → k.run?.isSome = true → k ≠ u.kind) ∧
        Tokenizes (before ++ after) (before ++ text).length us := by
  constructor
  · rintro ⟨htiles, ⟨body, rfl, hbody⟩, hapart⟩
    cases body with
    | nil =>
        -- Only `eof` is left, and it starts where the source ends.
        left
        have hlen : ((before ++ after).length : Int) = before.length := htiles.1
        have hnil : after = [] := by
          rw [← List.length_eq_zero_iff]
          rw [List.length_append] at hlen
          omega
        rw [hnil, List.append_nil]
        exact ⟨rfl, rfl⟩
    | cons t body =>
        right
        rw [List.forall_mem_cons] at hbody
        rcases hbody with ⟨⟨-, -, before', text, rest, hsrc, hspan, hcall⟩, hbody⟩
        have hstart : t.span.start = before.length := htiles.1
        rw [hspan] at hstart
        rw [List.append_assoc] at hsrc
        -- The token starts where the offset is, so what it says of the source is said of the rest.
        rcases List.append_inj hsrc (Int.ofNat_inj.mp hstart).symm with ⟨rfl, rfl⟩
        rcases t with ⟨k, span⟩
        simp only at hspan hcall
        subst hspan
        rw [List.cons_append, isChain_apart_cons] at hapart
        refine ⟨text, rest, k, body ++ [.endAt (before ++ (text ++ rest)).length], rfl, rfl,
          hcall, hapart.1, ?_, ⟨body, rfl, hbody⟩, hapart.2⟩
        have hrest := htiles.2
        rw [List.length_append, Int.natCast_add]
        exact hrest
  · rintro (⟨rfl, rfl⟩ | ⟨text, rest, k, us, rfl, rfl, hcall, hnext, htail⟩)
    · rw [List.append_nil]
      exact tokenizes_end before
    · exact tokenizes_cons before text rest k us hcall hnext htail

/-- The text does not go on with a run of the kind. -/
def Token.Kind.StopsAt (k : Token.Kind) (after : Text) : Prop :=
  ∀ p c, k.run? = some p → after.head? = some c → p c = false

theorem CallsFor.of_run {c : UInt8} {s after : Text} {k : Token.Kind} {p : UInt8 → Bool}
    (h : CallsFor (c :: s) after k) (hk : k.run? = some p) : p c = true := by
  cases h with
  | run _ q _ _ hq hne hall =>
      rw [hq, Option.some.injEq] at hk
      rw [List.all_cons, Bool.and_eq_true] at hall
      rw [← hk]
      exact hall.1
  | lparen => simp only [Token.Kind.run?, reduceCtorEq] at hk
  | rparen => simp only [Token.Kind.run?, reduceCtorEq] at hk
  | comma => simp only [Token.Kind.run?, reduceCtorEq] at hk
  | other b s _ code hb h => simp only [Token.Kind.run?, reduceCtorEq] at hk

namespace Lexer

/-- A byte of a class starts the longest run of it. -/
theorem classify_run (k : Token.Kind) (p : UInt8 → Bool) (b : UInt8) (rest : Text)
    (hk : k.run? = some p) (hb : p b = true) :
    classify b rest = (k, 1 + (rest.takeWhile p).length) := by
  cases k with
  | whitespace =>
      cases hk
      rw [classify, if_pos hb]
  | number =>
      cases hk
      exact classify_digit b rest hb
  | ident =>
      cases hk
      exact classify_letter b rest hb
  | _ => simp only [Token.Kind.run?, reduceCtorEq] at hk

/-- A byte of no class and no sign starts one other character. -/
theorem classify_stray (b : UInt8) (rest : Text) (h : Stray b) :
    classify b rest =
      (.unexpected (Utf8.decode b rest).code, (Utf8.decode b rest).width) := by
  rcases h with ⟨hspace, hdigit, hletter, h40, h41, h44⟩
  have hsymbol : symbol? b = none := by
    rw [symbol?, if_neg h40, if_neg h41, if_neg h44]
  rw [classify, hspace, hdigit, hletter, hsymbol]
  rfl

/-- The first byte of a token is of some class, a sign, or none of these. -/
theorem byte_cases (b : UInt8) : (∃ k p, Token.Kind.run? k = some p ∧ p b = true) ∨
    b = 40 ∨ b = 41 ∨ b = 44 ∨ Stray b := by
  by_cases hspace : isSpace b = true
  · exact Or.inl ⟨.whitespace, isSpace, rfl, hspace⟩
  by_cases hdigit : Token.isDigit b = true
  · exact Or.inl ⟨.number, Token.isDigit, rfl, hdigit⟩
  by_cases hletter : isLetter b = true
  · exact Or.inl ⟨.ident, isLetter, rfl, hletter⟩
  by_cases h40 : b = 40
  · exact Or.inr (Or.inl h40)
  by_cases h41 : b = 41
  · exact Or.inr (Or.inr (Or.inl h41))
  by_cases h44 : b = 44
  · exact Or.inr (Or.inr (Or.inr (Or.inl h44)))
  · simp only [Bool.not_eq_true] at hspace hdigit hletter
    exact Or.inr (Or.inr (Or.inr (Or.inr ⟨hspace, hdigit, hletter, h40, h41, h44⟩)))

/-- The lexer gives the kind that is called for, and does not stop within a run. -/
theorem classify_callsFor (b : UInt8) (rest : Text) :
    ∃ s after, rest = s ++ after ∧ (classify b rest).2 = (b :: s).length ∧
      CallsFor (b :: s) after (classify b rest).1 ∧ (classify b rest).1.StopsAt after := by
  have hsign : ∀ k : Token.Kind, k.run? = none → ∀ after, k.StopsAt after := by
    intro k hk after p c hp
    rw [hk] at hp
    simp only [reduceCtorEq] at hp
  rcases byte_cases b with ⟨k, p, hk, hb⟩ | rfl | rfl | rfl | hstray
  · -- a run, up to the first byte that is not of its class
    rw [classify_run k p b rest hk hb]
    refine ⟨rest.takeWhile p, rest.dropWhile p, (List.takeWhile_append_dropWhile ..).symm, ?_,
      .run k p _ _ hk (List.cons_ne_nil _ _) ?_, ?_⟩
    · rw [List.length_cons, Nat.add_comm]
    · rw [List.all_cons, hb, Bool.true_and]
      exact List.all_takeWhile
    · intro q c hq hc
      rw [hk, Option.some.injEq] at hq
      rw [← hq]
      have hhead := List.head?_dropWhile_not p rest
      rw [hc] at hhead
      exact hhead
  · exact ⟨[], rest, rfl, rfl, .lparen rest, hsign _ rfl rest⟩
  · exact ⟨[], rest, rfl, rfl, .rparen rest, hsign _ rfl rest⟩
  · exact ⟨[], rest, rfl, rfl, .comma rest, hsign _ rfl rest⟩
  · -- one other character, as far as decoding reads
    have hwidth := Utf8.width_decode b rest
    have hlen : (b :: rest.take ((Utf8.decode b rest).width - 1)).length =
        (Utf8.decode b rest).width := by
      rw [List.length_cons, List.length_take]
      omega
    rw [classify_stray b rest hstray]
    refine ⟨rest.take ((Utf8.decode b rest).width - 1),
      rest.drop ((Utf8.decode b rest).width - 1), (List.take_append_drop ..).symm, hlen.symm,
      .other b _ _ _ hstray ?_, hsign _ rfl _⟩
    rw [hlen, List.cons_append, List.take_append_drop]
    exact (Utf8.yields_iff_decode b rest _ _).mpr rfl

/-- A kind that is called for is what the lexer gives, if a run of it stops there. -/
theorem classify_of_callsFor (b : UInt8) (s after : Text) (k : Token.Kind)
    (h : CallsFor (b :: s) after k) (hstop : k.StopsAt after) :
    classify b (s ++ after) = (k, (b :: s).length) := by
  cases h with
  | run _ p _ _ hk hne hall =>
      rw [List.all_cons, Bool.and_eq_true] at hall
      rw [classify_run k p b _ hk hall.1, List.takeWhile_run p s after hall.2 (hstop p · hk),
        List.length_cons, Nat.add_comm]
  | lparen => rfl
  | rparen => rfl
  | comma => rfl
  | other b s _ code hb h =>
      rw [List.cons_append, Utf8.yields_iff_decode] at h
      rw [classify_stray b _ hb, h]

/-- The first byte of a token decides its kind, where it is of some class. -/
theorem kind_of_first (c : UInt8) (s after : Text) (k k' : Token.Kind) (p : UInt8 → Bool)
    (h : CallsFor (c :: s) after k') (hk : k.run? = some p) (hc : p c = true) : k' = k := by
  -- The lexer classifies the byte by its class, whatever stands behind it.
  have hclass : ∀ rest, (classify c rest).1 = k := by
    intro rest
    rw [classify_run k p c rest hk hc]
  cases h with
  | run _ q _ _ hq hne hall =>
      rw [List.all_cons, Bool.and_eq_true] at hall
      have hclass' := hclass []
      rw [classify_run k' q c [] hq hall.1] at hclass'
      exact hclass'
  | lparen => exact hclass []
  | rparen => exact hclass []
  | comma => exact hclass []
  | other b s _ code hb h =>
      have hclass' := hclass []
      rw [classify_stray c [] hb] at hclass'
      rw [← hclass'] at hk
      simp only [Token.Kind.run?, reduceCtorEq] at hk

end Lexer

/-- A run stops where the tokens behind it begin if and only if the first of these is not
    of its kind. -/
theorem stopsAt_iff (before after : Text) (us : List Token) (k : Token.Kind)
    (h : Tokenizes (before ++ after) before.length us) :
    k.StopsAt after ↔ ∀ u, us.head? = some u → k.run?.isSome = true → k ≠ u.kind := by
  rw [tokenizes_iff] at h
  rcases h with ⟨rfl, rfl⟩ | ⟨text, rest, k', us, rfl, rfl, hcall, -, -⟩
  · -- nothing is left, and `eof` is no run
    refine ⟨fun _ u hu hrun heq => ?_, fun _ p c _ hc => ?_⟩
    · rw [List.head?_cons, Option.some.injEq] at hu
      rw [heq, ← hu] at hrun
      simp only [Token.endAt, Token.Kind.run?, Option.isSome_none, Bool.false_eq_true] at hrun
    · simp only [List.head?_nil, reduceCtorEq] at hc
  · -- The first byte of the next token is the byte behind the run.
    rcases List.exists_cons_of_ne_nil hcall.ne_nil with ⟨c, s, rfl⟩
    constructor
    · intro hstop u hu hrun heq
      rw [List.head?_cons, Option.some.injEq] at hu
      rcases Option.isSome_iff_exists.mp hrun with ⟨p, hp⟩
      rw [heq, ← hu] at hp
      have hc : p c = true := hcall.of_run hp
      rw [hstop p c (by rw [heq, ← hu]; exact hp) rfl] at hc
      exact absurd hc (by decide)
    · intro hne p c' hp hc'
      have hcc : c = c' := Option.some.inj hc'
      by_contra hpc
      rw [Bool.not_eq_false, ← hcc] at hpc
      refine hne _ rfl (by rw [hp]; rfl) ?_
      exact (Lexer.kind_of_first c s rest k k' p hcall hp hpc).symm

namespace Lexer

theorem raw_eq (l l' : Lexer) (t : Token) (h : l.scan? = some (t, l')) :
    l.raw = t :: l'.raw := by
  rw [raw]
  split
  · next hnone => rw [h] at hnone; simp only [reduceCtorEq] at hnone
  · next u m hsome =>
    rw [h, Option.some.injEq, Prod.mk.injEq] at hsome
    rw [hsome.1, hsome.2]

@[simp]
theorem raw_done (rest : Text) (n : Nat) : raw ⟨rest, n, true⟩ = [] := by
  rw [raw]
  split
  · rfl
  · next t l' hsome => simp only [scan?, if_true, reduceCtorEq] at hsome

@[simp]
theorem raw_nil (n : Nat) : raw ⟨[], n, false⟩ = [.endAt n] := by
  rw [raw_eq _ _ _ (scan?_nil n), raw_done]

/-- The raw tokens of a text that begins with a token, as long as the lexer classifies it
    as one. -/
theorem raw_token (b : UInt8) (s after : Text) (n : Nat) (k : Token.Kind)
    (h : classify b (s ++ after) = (k, (b :: s).length)) :
    raw ⟨b :: (s ++ after), n, false⟩ = ⟨k, ⟨n, n + (b :: s).length⟩⟩ ::
      raw ⟨after, n + (b :: s).length, false⟩ := by
  rw [raw_eq _ _ _ (scan?_cons b (s ++ after) n), h, List.length_cons, Nat.add_sub_cancel,
    List.drop_left]

/-- The only tokens of a source from an offset on are the raw tokens that the lexer reads
    there, by induction on what is left of the source. -/
theorem tokenizes_iff_raw (rest : Text) : ∀ (before : Text) (ts : List Token),
    Tokenizes (before ++ rest) before.length ts ↔ ts = raw ⟨rest, before.length, false⟩ := by
  induction hn : rest.length using Nat.strongRecOn generalizing rest with
  | _ n ih =>
      intro before ts
      -- Behind a first token, what is left is shorter.
      have hrest : ∀ text after, rest = text ++ after → text ≠ [] → ∀ us,
          Tokenizes (before ++ rest) (before ++ text).length us ↔
            us = raw ⟨after, before.length + text.length, false⟩ := by
        intro text after hsplit hne us
        have hpos := List.length_pos_iff.mpr hne
        have hlt : after.length < n := by
          rw [← hn, hsplit, List.length_append]
          omega
        have hafter := ih after.length hlt after rfl (before ++ text) us
        rw [hsplit, ← List.append_assoc, hafter, List.length_append]
      rw [tokenizes_iff]
      cases rest with
      | nil =>
          rw [raw_nil]
          constructor
          · rintro (⟨-, hts⟩ | ⟨text, rest, k, us, hnil, -, hcall, -, -⟩)
            · exact hts
            · exact absurd (List.append_eq_nil_iff.mp hnil.symm).1 hcall.ne_nil
          · exact fun hts => Or.inl ⟨rfl, hts⟩
      | cons b r =>
          constructor
          · rintro (⟨hnil, -⟩ | ⟨text, after, k, us, hsplit, rfl, hcall, hnext, htail⟩)
            · exact absurd hnil (List.cons_ne_nil b r)
            · have hus := (hrest text after hsplit hcall.ne_nil us).mp htail
              rw [hsplit, ← List.append_assoc] at htail
              have hstop := (stopsAt_iff _ after us k htail).mpr hnext
              rcases List.exists_cons_of_ne_nil hcall.ne_nil with ⟨c, s, rfl⟩
              rcases List.cons.inj hsplit with ⟨rfl, rfl⟩
              have hclass := classify_of_callsFor b s after k hcall hstop
              rw [List.append_eq, raw_token b s after _ k hclass, hus]
          · -- The raw tokens satisfy the description: the first as it is classified, the others by
            -- hypothesis.
            rintro rfl
            rcases classify_callsFor b r with ⟨s, after, rfl, hlen, hcall, hstop⟩
            have hclass : classify b (s ++ after) =
                ((classify b (s ++ after)).1, (b :: s).length) := by rw [← hlen]
            have htail := (hrest (b :: s) after rfl (List.cons_ne_nil b s) _).mpr rfl
            refine Or.inr ⟨b :: s, after, _, _, rfl, raw_token b s after _ _ hclass, hcall, ?_,
              htail⟩
            rw [← List.cons_append, ← List.append_assoc] at htail
            exact (stopsAt_iff _ after _ _ htail).mp hstop

/-- Tokens are raw tokens without the blanks, by induction on what is left. -/
theorem run_eq_filter_raw (l : Lexer) :
    l.run.1 = l.raw.filter fun t => t.kind ≠ .whitespace := by
  induction hn : l.left using Nat.strongRecOn generalizing l with
  | _ n ih =>
      cases hscan : l.scan? with
      | none =>
          -- Only a lexer that has announced the end reads nothing.
          have hdone : l.done = true := by
            by_contra hl
            rw [Bool.not_eq_true] at hl
            rcases scan?_reads l hl with ⟨t, l', hsome, -⟩
            rw [hscan] at hsome
            simp only [reduceCtorEq] at hsome
          rcases l with ⟨rest, m, done⟩
          simp only at hdone
          rw [hdone, run_done, raw_done, List.filter_nil]
      | some read =>
          rcases read with ⟨t, l'⟩
          have hrest := ih l'.left (hn ▸ left_scan? hscan) l' rfl
          have hnext := next?_eq l l' t hscan
          rw [raw_eq l l' t hscan]
          by_cases hblank : t.kind = .whitespace
          · -- The run goes on as if it had started behind the blanks.
            rw [if_pos hblank] at hnext
            rw [List.filter_cons_of_neg (by simpa using hblank), ← hrest]
            exact run_congr l l' hnext
          · rw [if_neg hblank] at hnext
            rw [List.filter_cons_of_pos (by simpa using hblank), run_eq l l' t hnext, hrest]

/-- Raw tokens read one after the other. -/
inductive Scans : Lexer → List Token → Lexer → Prop
  | refl (l : Lexer) : Scans l [] l
  | step (l l' last : Lexer) (t : Token) (ts : List Token) (h : l.scan? = some (t, l'))
      (hrest : Scans l' ts last) : Scans l (t :: ts) last

/-- The raw tokens are read one after the other, and behind them there are no more. -/
theorem scans_raw (l : Lexer) : ∃ last, Scans l l.raw last ∧ last.scan? = none := by
  fun_induction raw l with
  | case1 l hnone => exact ⟨l, .refl l, hnone⟩
  | case2 l t l' hscan ih =>
      rcases ih with ⟨last, hscans, hend⟩
      exact ⟨last, .step l l' last t _ hscan hscans, hend⟩

end Lexer

/-- Tokens that cover a source spell it, one after the other. -/
theorem lexemes_of_tokenizes (src : Text) (ts : List Token) : ∀ before rest : Text,
    src = before ++ rest → Tokenizes src before.length ts →
      ∃ texts, List.Forall₂ (fun t s => t.lexeme? src = some s) ts texts ∧
        texts.flatten = rest := by
  -- Along the tokens, each of which spells the bytes from its start to the next.
  induction ts with
  | nil =>
      rintro before rest rfl ⟨-, ⟨body, hnil, -⟩, -⟩
      exact absurd hnil.symm (List.append_ne_nil_of_right_ne_nil body (List.cons_ne_nil _ _))
  | cons t ts ih =>
      rintro before rest rfl h
      rw [tokenizes_iff] at h
      rcases h with ⟨rfl, hts⟩ | ⟨text, after, k, us, rfl, hts, -, -, htail⟩
      · rcases List.cons.inj hts with ⟨rfl, rfl⟩
        refine ⟨[[]], .cons ?_ .nil, rfl⟩
        have hend := Token.lexeme?_of_span (.endAt before.length) before [] []
          (by rw [Token.endAt, List.length_nil]; rfl)
        rw [List.append_nil, List.append_nil] at hend
        rw [List.append_nil]
        exact hend
      · rcases List.cons.inj hts with ⟨rfl, rfl⟩
        rcases ih (before ++ text) after (by rw [List.append_assoc]) htail with
          ⟨texts, hlex, hflat⟩
        refine ⟨text :: texts, .cons ?_ hlex, by rw [List.flatten_cons, hflat]⟩
        rw [← List.append_assoc]
        exact Token.lexeme?_of_span _ before text after rfl

namespace Token

/-- The tokens are not empty and lie one behind the other between two offsets. -/
def InOrder : Int → Int → List Token → Prop
  | lo, hi, [] => lo ≤ hi
  | lo, hi, t :: ts => lo ≤ t.span.start ∧ t.span.start < t.span.stop ∧ InOrder t.span.stop hi ts

theorem InOrder.le {hi : Int} {ts : List Token} : ∀ {lo : Int}, InOrder lo hi ts → lo ≤ hi := by
  induction ts with
  | nil => exact fun h => h
  | cons t ts ih =>
      rintro lo ⟨hlo, hne, hrest⟩
      have hstop := ih hrest
      omega

theorem InOrder.mono {lo lo' hi : Int} {ts : List Token} (h : InOrder lo hi ts)
    (hle : lo' ≤ lo) : InOrder lo' hi ts := by
  cases ts with
  | nil => exact Int.le_trans hle h
  | cons t ts => exact ⟨Int.le_trans hle h.1, h.2⟩

/-- A token in a range lies in it as a whole. -/
theorem InOrder.bounds {hi : Int} {ts : List Token} : ∀ {lo : Int}, InOrder lo hi ts →
    ∀ t ∈ ts, lo ≤ t.span.start ∧ t.span.start < t.span.stop ∧ t.span.stop ≤ hi := by
  induction ts with
  | nil => exact fun _ => List.forall_mem_nil _
  | cons t ts ih =>
      rintro lo ⟨hlo, hne, hrest⟩
      rw [List.forall_mem_cons]
      refine ⟨⟨hlo, hne, hrest.le⟩, fun u hu => ?_⟩
      have hu := ih hrest u hu
      omega

/-- Splitting a list of tokens splits the range in which they lie. -/
theorem inOrder_append (hi : Int) (ts us : List Token) : ∀ lo : Int,
    InOrder lo hi (ts ++ us) ↔ ∃ mid, InOrder lo mid ts ∧ InOrder mid hi us := by
  induction ts with
  | nil =>
      intro lo
      refine ⟨fun h => ⟨lo, Int.le_refl lo, h⟩, ?_⟩
      rintro ⟨mid, hle, h⟩
      exact h.mono hle
  | cons t ts ih =>
      intro lo
      constructor
      · rintro ⟨hlo, hne, hrest⟩
        rcases (ih t.span.stop).mp hrest with ⟨mid, hts, hus⟩
        exact ⟨mid, ⟨hlo, hne, hts⟩, hus⟩
      · rintro ⟨mid, ⟨hlo, hne, hts⟩, hus⟩
        exact ⟨hlo, hne, (ih t.span.stop).mpr ⟨mid, hts, hus⟩⟩

/-- Leaving tokens out leaves the others in order. -/
theorem InOrder.filter (p : Token → Bool) {hi : Int} {ts : List Token} : ∀ {lo : Int},
    InOrder lo hi ts → InOrder lo hi (ts.filter p) := by
  induction ts with
  | nil => exact fun h => h
  | cons t ts ih =>
      rintro lo ⟨hlo, hne, hrest⟩
      by_cases ht : p t = true
      · rw [List.filter_cons_of_pos ht]
        exact ⟨hlo, hne, ih hrest⟩
      · -- The offsets of a token that is left out become a gap.
        rw [List.filter_cons_of_neg ht]
        exact (ih hrest).mono (by omega)

/-- Tokens that cover a range are in order, and those behind them cover the rest. -/
theorem inOrder_of_tiles (hi : Int) (ts us : List Token)
    (hne : ∀ t ∈ ts, t.span.start < t.span.stop) : ∀ lo : Int, Tiles lo hi (ts ++ us) →
      ∃ mid, InOrder lo mid ts ∧ Tiles mid hi us := by
  induction ts with
  | nil => exact fun lo h => ⟨lo, Int.le_refl lo, h⟩
  | cons t ts ih =>
      rintro lo ⟨rfl, htiles⟩
      rw [List.forall_mem_cons] at hne
      rcases ih hne.2 t.span.stop htiles with ⟨mid, hts, hus⟩
      exact ⟨mid, ⟨Int.le_refl _, hne.1, hts⟩, hus⟩

end Token

/-- The tokens of a source are in order, each of the kind that its bytes call for, and
    behind them there is `eof`. -/
theorem lex_inOrder (src : Text) : ∃ body, lex src = body ++ [.endAt src.length] ∧
    Token.InOrder 0 src.length body ∧ ∀ t ∈ body, t.kind ≠ .eof ∧ t.Called src := by
  rcases (Lexer.tokenizes_iff_raw src [] _).mpr rfl with ⟨htiles, ⟨body, hraw, hbody⟩, -⟩
  refine ⟨body.filter fun t => t.kind ≠ .whitespace, ?_, ?_, ?_⟩
  · have hlex : lex src = (Lexer.ofSource src).raw.filter fun t => t.kind ≠ .whitespace :=
      Lexer.run_eq_filter_raw _
    have hraw : (Lexer.ofSource src).raw = body ++ [.endAt src.length] := hraw
    rw [hlex, hraw, List.filter_append]
    rfl
  · -- The tokens cover the source up to the end, which is where the range ends.
    rw [hraw] at htiles
    rcases Token.inOrder_of_tiles _ body _ (fun t ht => (hbody t ht).2.1) _ htiles with
      ⟨mid, hin, hmid, -⟩
    have hmid : (src.length : Int) = mid := hmid
    rw [← hmid] at hin
    exact hin.filter _
  · intro t ht
    have ht := hbody t (List.mem_filter.mp ht).1
    exact ⟨ht.1, ht.2.2⟩

/-- What the lexer makes of a source, for every list of bytes. Reading raw tokens comes to
    an end. They cover the source, spell it one after the other, and are of the kinds that
    their bytes call for, no run being cut in two. There is no other list of tokens of
    which this is true, and without its blanks it is the list of tokens of the source. -/
theorem lexer_tiles_uniquely (src : Text) :
    (∃ last, Lexer.Scans (.ofSource src) (Lexer.ofSource src).raw last ∧ last.scan? = none) ∧
    Tokenizes src 0 (Lexer.ofSource src).raw ∧
    (∃ texts, List.Forall₂ (fun t s => t.lexeme? src = some s) (Lexer.ofSource src).raw texts ∧
      texts.flatten = src) ∧
    (∀ ts, Tokenizes src 0 ts → ts = (Lexer.ofSource src).raw) ∧
    lex src = (Lexer.ofSource src).raw.filter fun t => t.kind ≠ .whitespace := by
  have htiles : Tokenizes src 0 (Lexer.ofSource src).raw :=
    (Lexer.tokenizes_iff_raw src [] _).mpr rfl
  refine ⟨Lexer.scans_raw _, htiles, lexemes_of_tokenizes src _ [] src rfl htiles, ?_,
    Lexer.run_eq_filter_raw _⟩
  exact fun ts hts => (Lexer.tokenizes_iff_raw src [] ts).mp hts

end BitLogic
