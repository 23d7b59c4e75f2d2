import BitLogic.Proofs.Faults
import BitLogic.Proofs.Grammar
import BitLogic.Proofs.Tiling

/-!
# Spans of a Parsed Tree Nest

Where the nodes of a parsed tree stand in its source.

A name is spelt by the source at its own span. A call begins with its name and ends with
a closing parenthesis, and its arguments lie between the two, one behind the other and
never touching: an opening parenthesis or a comma stands before each of them, and a comma
or a closing parenthesis behind it. `Expr.Placed` says this of a single node, so a tree is
in place if each of its nodes is.

The parser computes spans from tokens, hence everything here comes from the order of the
tokens. A derivation splits its tokens in the way its phrases are written, and splitting
the tokens splits the range of offsets in which they lie, so a phrase is confined to the
range of its own tokens (`confined_of_derives`). That is all a call needs to know about its
arguments.

A node comes before the nodes below it, and starts before them. Nodes that are in place are
therefore met in the order in which they start, and no two of them share a span.

## Main definitions

* `Expr.Separate`: Expressions in a range of offsets, apart from each other and from its
  ends.
* `Ident.Names`: A name is what the source spells at its place.
* `Expr.Placed`: A node stands where it should.
* `Grammar.Phrase.Confined`: A phrase lies between two offsets.
* `Grammar.Phrase.exprs`: The expressions of a phrase.

## Theorems

* `Span.cover_of_le`: The span from a beginning to an end.
* `Ident.Names.start_lt_stop`, `Expr.Placed.start_lt_stop`: Names and nodes in place are
  not empty.
* `Expr.span_call`: The span of a call is the one it is given.
* `Expr.Separate.lt`, `Expr.Separate.mono`, `Expr.Separate.bounds`,
  `Expr.Separate.pairwise`: Expressions that are apart.
* `Expr.starts_increase`: Nodes in place are met in the order of their starts.
* `CallsFor.letters`, `CallsFor.closes`: What names and closing parentheses are spelt
  with.
* `Grammar.names_of_isName`, `Grammar.closes_of_called`: Names and closing parentheses
  in place.
* `Grammar.confined_of_derives`: A phrase lies where its tokens do.
* `Grammar.placed_of_derives`: The nodes of a derived phrase are in place.
* `placed_of_parse`: So are those of a parsed tree.
* `Expr.solid_of_nodes`, `solid_of_parse`: A parsed tree has no blank nodes.
* `parsed_spans_nest`: Where the nodes of a parsed tree stand.
* `parse_inset`, `parsed_spans_nest_inset`: A call inside a call.
-/

namespace BitLogic

/-! ## Nodes in place -/

/-- The expressions are not empty and lie one behind the other between two offsets, apart
    from these and from each other. -/
def Expr.Separate : Int → Int → List Expr → Prop
  | lo, hi, [] => lo < hi
  | lo, hi, e :: es => lo < e.span.start ∧ e.span.start < e.span.stop ∧ Separate e.span.stop hi es

/-- The name is a non-empty run of letters, and the source spells it at its place. -/
structure Ident.Names (src : Text) (id : Ident) : Prop where
  ne_nil : id.name ≠ []
  letters : id.name.all Lexer.isLetter = true
  spelt : src.slice? id.span.start id.span.stop = some id.name

/-- The node stands where it should. A variable is where its name is. A call begins with its
    name, ends with a closing parenthesis, and has its arguments strictly inside, apart from
    the name, from each other and from the end. -/
inductive Expr.Placed (src : Text) : Expr → Prop
  | var (id : Ident) (hid : id.Names src) : Placed src (.var id id.span)
  | call (id : Ident) (args : List Expr) (s : Span) (hid : id.Names src)
      (hstart : s.start = id.span.start)
      (hclose : ∃ i : Nat, s.stop = i + 1 ∧ src[i]? = some 41)
      (hinside : ∀ a ∈ args, s.start < a.span.start ∧ a.span.stop < s.stop)
      (hargs : Separate id.span.stop s.stop args) : Placed src (.call id args s)

/-- The span of a beginning and an end that stand in order. -/
theorem Span.cover_of_le (s t : Span) (hstart : s.start ≤ t.start) (hstop : s.stop ≤ t.stop) :
    s.cover t = ⟨s.start, t.stop⟩ := by
  rw [cover, mk.injEq]
  omega

/-- A name that is spelt somewhere takes up room there. -/
theorem Ident.Names.start_lt_stop {src : Text} {id : Ident} (h : id.Names src) :
    id.span.start < id.span.stop := by
  rcases (Text.slice?_eq_some_iff _ _ _ _).mp h.spelt with ⟨before, after, -, hstart, hstop⟩
  have hpos := List.length_pos_iff.mpr h.ne_nil
  omega

namespace Expr

@[simp]
theorem span_call (id : Ident) (args : List Expr) (s : Span) : (call id args s).span = s := rfl

theorem Separate.lt {hi : Int} {es : List Expr} : ∀ {lo : Int}, Separate lo hi es → lo < hi := by
  induction es with
  | nil => exact fun h => h
  | cons e es ih =>
      rintro lo ⟨hlo, hne, hrest⟩
      have hstop := ih hrest
      omega

theorem Separate.mono {lo lo' hi : Int} {es : List Expr} (h : Separate lo hi es)
    (hle : lo' ≤ lo) : Separate lo' hi es := by
  cases es with
  | nil => exact Int.lt_of_le_of_lt hle h
  | cons e es => exact ⟨Int.lt_of_le_of_lt hle h.1, h.2⟩

/-- Each of the expressions lies between the two offsets. -/
theorem Separate.bounds {hi : Int} {es : List Expr} : ∀ {lo : Int}, Separate lo hi es →
    ∀ e ∈ es, lo < e.span.start ∧ e.span.stop < hi := by
  induction es with
  | nil => exact fun _ => List.forall_mem_nil _
  | cons e es ih =>
      rintro lo ⟨hlo, hne, hrest⟩
      rw [List.forall_mem_cons]
      refine ⟨⟨hlo, hrest.lt⟩, fun a ha => ?_⟩
      have ha := ih hrest a ha
      omega

/-- Of two of the expressions, the one behind begins after the other has ended. -/
theorem Separate.pairwise {hi : Int} {es : List Expr} : ∀ {lo : Int}, Separate lo hi es →
    es.Pairwise fun a b => a.span.stop < b.span.start := by
  induction es with
  | nil => exact fun _ => List.Pairwise.nil
  | cons e es ih =>
      rintro lo ⟨hlo, hne, hrest⟩
      exact List.Pairwise.cons (fun a ha => (hrest.bounds a ha).1) (ih hrest)

theorem Placed.start_lt_stop {src : Text} {e : Expr} (h : e.Placed src) :
    e.span.start < e.span.stop := by
  cases h with
  | var id hid => exact hid.start_lt_stop
  | call id args s hid hstart hclose hinside hargs =>
      have hname := hid.start_lt_stop
      have hend := hargs.lt
      simp only [span_call]
      omega

/-- Below a node in place all nodes lie within its span and start in the order in which they
    are met, by induction on the tree. -/
theorem starts_increase (src : Text) (e : Expr) (h : ∀ n ∈ e.nodes, n.Placed src) :
    (e.nodes.Pairwise fun a b => a.span.start < b.span.start) ∧
      ∀ n ∈ e.nodes, e.span.start ≤ n.span.start ∧ n.span.stop ≤ e.span.stop := by
  induction e using induction_args with
  | var id s => simp
  | blank s =>
      exact ⟨List.pairwise_singleton _ _,
        List.forall_mem_singleton.mpr ⟨Int.le_refl _, Int.le_refl _⟩⟩
  | call id args s ih =>
      rw [forall_nodes_call] at h
      rcases h with ⟨hcall, hbelow⟩
      have ih := fun a ha => ih a ha (hbelow a ha)
      cases hcall with
      | call _ _ _ hid hstart hclose hinside hargs =>
          -- What is below an argument is within it, and the argument is strictly inside the call.
          have hstrict : ∀ n ∈ args.flatMap nodes,
              s.start < n.span.start ∧ n.span.stop < s.stop := by
            intro n hn
            rcases List.mem_flatMap.mp hn with ⟨a, ha, hn⟩
            have ha' := hinside a ha
            have hn' := (ih a ha).2 n hn
            omega
          rw [nodes_call]
          refine ⟨List.Pairwise.cons (fun n hn => (hstrict n hn).1) ?_, ?_⟩
          · -- Nodes below one argument are in order, and those below a later one are behind it.
            rw [List.pairwise_flatMap]
            refine ⟨fun a ha => (ih a ha).1, hargs.pairwise.imp_of_mem ?_⟩
            intro a b ha hb hab n hn m hm
            have hne := (hbelow a ha n hn).start_lt_stop
            have hn' := (ih a ha).2 n hn
            have hm' := (ih b hb).2 m hm
            omega
          · rw [List.forall_mem_cons]
            refine ⟨⟨Int.le_refl _, Int.le_refl _⟩, fun n hn => ?_⟩
            have hn' := hstrict n hn
            rw [span_call]
            omega

end Expr

/-! ## Derived phrases -/

theorem CallsFor.letters {text after : Text} (h : CallsFor text after .ident) :
    text ≠ [] ∧ text.all Lexer.isLetter = true := by
  cases h with
  | run _ p _ _ hk hne hall =>
      rw [Token.Kind.run?, Option.some.injEq] at hk
      rw [hk]
      exact ⟨hne, hall⟩

theorem CallsFor.closes {text after : Text} (h : CallsFor text after .rparen) : text = [41] := by
  cases h with
  | run _ p _ _ hk hne hall => simp only [Token.Kind.run?, reduceCtorEq] at hk
  | rparen => rfl

namespace Grammar

/-- A name that a token spells is a name of the source. -/
theorem names_of_isName (src : Text) (t : Token) (name : Text) (h : IsName src t name)
    (ht : t.Called src) : Ident.Names src ⟨name, t.span⟩ := by
  rcases h with ⟨hk, hlex⟩
  rcases ht with ⟨before, text, after, rfl, hspan, hcall⟩
  have htext := t.lexeme?_of_span before text after hspan
  rw [hlex, Option.some.injEq] at htext
  rw [hk] at hcall
  rw [← htext] at hcall
  exact ⟨hcall.letters.1, hcall.letters.2, hlex⟩

/-- A closing parenthesis is the last byte of its token. -/
theorem closes_of_called (src : Text) (c : Token) (hk : c.kind = .rparen) (hc : c.Called src) :
    ∃ i : Nat, c.span.stop = i + 1 ∧ src[i]? = some 41 := by
  rcases hc with ⟨before, text, after, rfl, hspan, hcall⟩
  rw [hk] at hcall
  rw [hcall.closes] at hspan ⊢
  refine ⟨before.length, by rw [hspan]; rfl, ?_⟩
  rw [List.append_assoc, List.getElem?_append_right (Nat.le_refl _), Nat.sub_self]
  rfl

/-- The phrase lies between two offsets. Its expressions are apart from whatever stands
    before and behind it, except that nothing need stand before the comma of a further
    argument. -/
def Phrase.Confined (lo hi : Int) : Phrase → Prop
  | .expr e => lo ≤ e.span.start ∧ e.span.start < e.span.stop ∧ e.span.stop ≤ hi
  | .args es => ∀ lo' hi', lo' < lo → hi < hi' → Expr.Separate lo' hi' es
  | .more es => ∀ hi', hi < hi' → Expr.Separate lo hi' es

/-- A phrase lies where its tokens do, by induction on the derivation. -/
theorem confined_of_derives (src : Text) (phrase : Phrase) (ts : List Token)
    (h : Derives src phrase ts) : ∀ lo hi : Int, Token.InOrder lo hi ts →
      phrase.Confined lo hi := by
  induction h with
  | var t name ht =>
      rintro lo hi ⟨hlo, hne, hhi⟩
      exact ⟨hlo, hne, hhi⟩
  | call t o c name ts es ht ho hargs hc ih =>
      rintro lo hi ⟨hlo, hne, hopen, hone, hrest⟩
      -- The arguments lie between the parentheses, and the closing one is last.
      rcases (Token.inOrder_append hi ts [c] _).mp hrest with ⟨mid, hts, hcs, hcne, hhi⟩
      have hle := hts.le
      have hhi : c.span.stop ≤ hi := hhi
      have hlt : t.span.start < c.span.stop := by omega
      rw [Phrase.Confined, Expr.span_call, Span.cover_of_le _ _ (by omega) (by omega)]
      exact ⟨hlo, hlt, hhi⟩
  | noArgs =>
      intro lo hi hle lo' hi' hlo hhi
      have hle : lo ≤ hi := hle
      exact Int.lt_trans hlo (Int.lt_of_le_of_lt hle hhi)
  | args e es ts us he hmore ihe ihmore =>
      intro lo hi h lo' hi' hlo hhi
      rcases (Token.inOrder_append hi ts us lo).mp h with ⟨mid, hts, hus⟩
      -- The expression ends where the tokens of the further arguments begin, or before.
      rcases ihe lo mid hts with ⟨hstart, hne, hstop⟩
      exact ⟨Int.lt_of_lt_of_le hlo hstart, hne, (ihmore mid hi hus hi' hhi).mono hstop⟩
  | noMore =>
      intro lo hi hle hi' hhi
      have hle : lo ≤ hi := hle
      exact Int.lt_of_le_of_lt hle hhi
  | more c e es ts us hc he hmore ihe ihmore =>
      rintro lo hi ⟨hlo, hcne, h⟩ hi' hhi
      rcases (Token.inOrder_append hi ts us _).mp h with ⟨mid, hts, hus⟩
      rcases ihe _ mid hts with ⟨hstart, hne, hstop⟩
      -- The comma stands between this argument and what is before it.
      exact ⟨by omega, hne, (ihmore mid hi hus hi' hhi).mono hstop⟩

/-- The expressions of a phrase. -/
def Phrase.exprs : Phrase → List Expr
  | .expr e => [e]
  | .args es => es
  | .more es => es

/-- The nodes of a derived phrase are in place. -/
theorem placed_of_derives (src : Text) (phrase : Phrase) (ts : List Token)
    (h : Derives src phrase ts) (hcalled : ∀ t ∈ ts, t.Called src) : ∀ lo hi : Int,
      Token.InOrder lo hi ts → ∀ e ∈ phrase.exprs, ∀ n ∈ e.nodes, n.Placed src := by
  induction h with
  | var t name ht =>
      intro lo hi _
      have hid := names_of_isName src t name ht (hcalled t List.mem_cons_self)
      rw [Phrase.exprs, List.forall_mem_singleton, Expr.nodes_var, List.forall_mem_singleton]
      exact .var ⟨name, t.span⟩ hid
  | call t o c name ts es ht ho hargs hc ih =>
      rintro lo hi ⟨hlo, hne, hopen, hone, hrest⟩
      rw [List.forall_mem_cons, List.forall_mem_cons, List.forall_mem_append,
        List.forall_mem_singleton] at hcalled
      rcases hcalled with ⟨htc, -, htsc, hcc⟩
      rcases (Token.inOrder_append hi ts [c] _).mp hrest with ⟨mid, hts, hcs, hcne, hhi⟩
      have hle := hts.le
      -- The call runs from its name to the parenthesis, the arguments being in between.
      have hspan := Span.cover_of_le t.span c.span (by omega) (by omega)
      have hsep : Expr.Separate t.span.stop c.span.stop es :=
        confined_of_derives src _ ts hargs _ mid hts _ _ (by omega) (by omega)
      have hbelow := ih htsc _ mid hts
      rw [Phrase.exprs, List.forall_mem_singleton, Expr.forall_nodes_call, hspan]
      refine ⟨.call _ es _ (names_of_isName src t name ht htc) rfl
        (closes_of_called src c hc hcc) ?_ hsep, hbelow⟩
      intro a ha
      have ha := hsep.bounds a ha
      simp only
      omega
  | noArgs => exact fun _ _ _ => List.forall_mem_nil _
  | args e es ts us he hmore ihe ihmore =>
      intro lo hi h
      rw [List.forall_mem_append] at hcalled
      rcases (Token.inOrder_append hi ts us lo).mp h with ⟨mid, hts, hus⟩
      rw [Phrase.exprs, List.forall_mem_cons]
      exact ⟨ihe hcalled.1 lo mid hts e List.mem_cons_self, ihmore hcalled.2 mid hi hus⟩
  | noMore => exact fun _ _ _ => List.forall_mem_nil _
  | more c e es ts us hc he hmore ihe ihmore =>
      rintro lo hi ⟨-, -, h⟩
      rw [List.forall_mem_cons, List.forall_mem_append] at hcalled
      rcases (Token.inOrder_append hi ts us _).mp h with ⟨mid, hts, hus⟩
      rw [Phrase.exprs, List.forall_mem_cons]
      exact ⟨ihe hcalled.2.1 _ mid hts e List.mem_cons_self, ihmore hcalled.2.2 mid hi hus⟩

end Grammar

/-- The nodes of a parsed tree are in place. -/
theorem placed_of_parse (src : Text) (p : Program) (h : parse src = .ok p) :
    ∀ e ∈ p.expr.nodes, e.Placed src := by
  rcases lex_inOrder src with ⟨body, hlex, hin, hbody⟩
  rw [parse_eq_ok_iff, hlex] at h
  generalize hts : body ++ [Token.endAt src.length] = ts at h
  cases h with
  | mk bits e hs ts z hhead he hz =>
      -- The last token is the end of the source, so the others are those of the head and the
      -- expression.
      have hsplit := (List.append_inj' hts rfl).1
      rw [hsplit] at hin hbody
      rcases (Token.inOrder_append _ hs ts 0).mp hin with ⟨mid, -, hmid⟩
      exact Grammar.placed_of_derives src _ ts he
        (fun t ht => (hbody t (List.mem_append_right hs ht)).2) mid _ hmid e List.mem_cons_self

/-- A tree whose nodes are in place has no blank ones, as a blank has no place. -/
theorem Expr.solid_of_nodes (src : Text) (e : Expr) (h : ∀ n ∈ e.nodes, n.Placed src) :
    e.Solid := by
  induction e using Expr.induction_args with
  | var id s => exact .var id s
  | blank s =>
      have hblank := h (.blank s) List.mem_cons_self
      cases hblank
  | call id args s ih =>
      exact .call id args s fun a ha => ih a ha (((forall_nodes_call id args s).mp h).2 a ha)

theorem solid_of_parse (src : Text) (p : Program) (h : parse src = .ok p) : p.expr.Solid :=
  p.expr.solid_of_nodes src (placed_of_parse src p h)

/-- The nodes of a parsed tree are in place: names are spelt by the source where they stand,
    calls run from their name to a closing parenthesis, and arguments lie strictly inside,
    apart from each other. So no two nodes have the same span, and nodes are met in the order
    in which they start. -/
theorem parsed_spans_nest (src : Text) (p : Program) (h : parse src = .ok p) :
    (∀ e ∈ p.expr.nodes, e.Placed src) ∧
      (p.expr.nodes.map Expr.span).Nodup ∧
      p.expr.nodes.Pairwise fun a b => a.span.start < b.span.start := by
  have hplaced := placed_of_parse src p h
  have hstarts := (Expr.starts_increase src p.expr hplaced).1
  refine ⟨hplaced, ?_, hstarts⟩
  rw [List.Nodup, List.pairwise_map]
  -- Nodes that share a span would start at one offset.
  refine hstarts.imp fun hlt heq => ?_
  rw [heq] at hlt
  exact Int.lt_irrefl _ hlt

/-- A call inside a call, with blanks around its argument. -/
def inset : Text := Text.ofString "1 1 or(A, not( B ))"

/-- The program of that source. -/
def insetProgram : Program :=
  let name (s : String) (n : Int) : Ident := ⟨Text.ofString s, ⟨n, n + s.length⟩⟩
  ⟨[true], .call (name "or" 4) [.var (name "A" 7) ⟨7, 8⟩,
    .call (name "not" 10) [.var (name "B" 15) ⟨15, 16⟩] ⟨10, 18⟩] ⟨4, 19⟩⟩

theorem parse_inset : parse inset = .ok insetProgram := by
  have hlex : lex inset = [⟨.number, ⟨0, 1⟩⟩, ⟨.number, ⟨2, 3⟩⟩, ⟨.ident, ⟨4, 6⟩⟩,
      ⟨.lparen, ⟨6, 7⟩⟩, ⟨.ident, ⟨7, 8⟩⟩, ⟨.comma, ⟨8, 9⟩⟩, ⟨.ident, ⟨10, 13⟩⟩,
      ⟨.lparen, ⟨13, 14⟩⟩, ⟨.ident, ⟨15, 16⟩⟩, ⟨.rparen, ⟨17, 18⟩⟩, ⟨.rparen, ⟨18, 19⟩⟩,
      .endAt 19] := by decide +kernel
  rw [parse_eq_drive, hlex]
  rfl

theorem parsed_spans_nest_inset : parse inset = .ok insetProgram ∧
    (∀ e ∈ insetProgram.expr.nodes, e.Placed inset) ∧
      (insetProgram.expr.nodes.map Expr.span).Nodup ∧
      insetProgram.expr.nodes.Pairwise fun a b => a.span.start < b.span.start :=
  ⟨parse_inset, parsed_spans_nest inset insetProgram parse_inset⟩

end BitLogic
