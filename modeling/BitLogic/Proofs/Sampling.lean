import BitLogic.Proofs.Lines
import BitLogic.Proofs.Meaning
import BitLogic.Proofs.Nesting
import BitLogic.Proofs.Written
import BitLogic.Sampler

/-!
# Random Programs Are Programs

Whatever is drawn, a random expression can be read back and has a value, and it has no more
calls than its budget allows.

What has been drawn is a text, and a text has no parts. So the tree that it is meant to
spell is named along with it: `Drawn` says of a text and a tree that the text lays out the
lexemes of the tree, that all names in the tree are right, and that the budget has been
charged for the calls of the tree. This is preserved by the two ways in which texts are put
together, a call from its arguments and arguments from an argument and others, each of which
has spent what the next one no longer has. The recursion is followed by induction on the
budget, and along the arguments of a call by induction on their number.

Reading the text back is then a matter of the grammar, since a text that lays out the lexemes
of a program is parsed as the program up to its spans. `Expr.bare` forgets the spans, and
neither the number of calls nor the regularity of a node depends on them.

## Main definitions

* `Declares`: A text is a way of writing the number of bits and the bits.
* `Sampler.Sound`, `Sampler.SoundArgs`: A text spells a tree, or arguments, whose names are
  right.
* `Sampler.Charged`: What is left of a budget after a number of calls.
* `Sampler.Drawn`, `Sampler.DrawnArgs`: A piece of text is sound and has been charged for.

## Theorems

* `Expr.nodes_bare`: The nodes of an expression without its spans.
* `Expr.regular_bare_iff`, `Expr.regular_of_bare`: Whether a node is regular does not
  depend on spans.
* `Sampler.callCount_eq`, `Sampler.callCount_call`, `Sampler.callsIn_cons`: Calls are
  counted node by node.
* `Sampler.callCount_of_bare`: The number of calls does not depend on spans.
* `Sampler.Charged.none`, `Sampler.Charged.trans`, `Sampler.Charged.call`: How a budget
  is spent.
* `Sampler.below_ok`, `Sampler.head_ok`: Numbers and functions are drawn.
* `Sampler.all_isLetter_letter`, `Sampler.sound_variableOf`, `Sampler.leaf_drawn`:
  Variables are drawn.
* `Sampler.sound_callOf`: A call of sound arguments is sound.
* `Sampler.soundArgs_nil`, `Sampler.soundArgs_singleton`, `Sampler.soundArgs_cons`:
  Arguments are put together.
* `Sampler.expr_eq_call`, `Sampler.arguments_eq_cons`: What is written once the parts
  have been drawn.
* `Sampler.arguments_drawn`, `Sampler.expr_drawn`: What comes of drawing.
* `not_digit_of_laidOut`, `Expr.Named.not_digit`: No digit begins an expression.
* `parse_declared`: A sound text behind a declaration is parsed and has a value.
* `laidOut_joinWith`, `declares_joinWith`: A declaration as it is written.
* `Sampler.bitList_ok`, `Sampler.bits_ok`: Bits are drawn.
* `Sampler.program_zero`, `Sampler.program_pos`: Programs are drawn.
* `Sampler.draws_are_sound`: Random expressions and random programs for every outcome of
  the draws.
* `Sampler.text_nestedDraws`, `Sampler.draws_are_sound_nested`: Draws that give a call
  in a call.
-/

namespace BitLogic

/-! ## Expressions without their spans -/

namespace Expr

/-- The nodes of a tree without its spans are those of the tree, without theirs. -/
@[simp]
theorem nodes_bare (e : Expr) : e.bare.nodes = e.nodes.map bare := by
  induction e using induction_args with
  | var id s => rfl
  | blank s => rfl
  | call id args s ih =>
      simp [bare, List.flatMap_map, List.map_flatMap, List.flatMap_congr ih]

@[simp]
theorem regular_bare_iff (n : Nat) (e : Expr) : e.bare.Regular n ↔ e.Regular n := by
  cases e with
  | var id s => rfl
  | blank s => rfl
  | call id args s => simp [bare, Regular]

/-- Nodes are regular or not, whatever their spans. -/
theorem regular_of_bare (n : Nat) (e e' : Expr) (h : e'.bare = e.bare)
    (hregular : ∀ m ∈ e.nodes, m.Regular n) : ∀ m ∈ e'.nodes, m.Regular n := by
  have hnodes : e'.nodes.map bare = e.nodes.map bare := by rw [← nodes_bare, h, nodes_bare]
  intro m hm
  have hmem := List.mem_map_of_mem (f := bare) hm
  rw [hnodes] at hmem
  -- A node of one tree has its like in the other, which differs in spans only.
  rcases List.mem_map.mp hmem with ⟨m', hm', heq⟩
  rw [← regular_bare_iff, ← heq, regular_bare_iff]
  exact hregular m' hm'

end Expr

namespace Sampler

/-- The number of calls in several expressions. -/
def callsIn (es : List Expr) : Nat := (es.flatMap Expr.nodes).countP isCall

theorem callCount_eq (e : Expr) : callCount e = e.nodes.countP isCall := by
  rw [callCount, Expr.nodes, List.countP_map]
  rfl

@[simp]
theorem callCount_call (id : Ident) (args : List Expr) (s : Span) :
    callCount (.call id args s) = callsIn args + 1 := by
  rw [callCount_eq, Expr.nodes_call, List.countP_cons, callsIn]
  rfl

@[simp]
theorem callsIn_cons (e : Expr) (es : List Expr) :
    callsIn (e :: es) = callCount e + callsIn es := by
  rw [callsIn, List.flatMap_cons, List.countP_append, callCount_eq, callsIn]

theorem callCount_of_bare (e e' : Expr) (h : e'.bare = e.bare) : callCount e' = callCount e := by
  have hbare : ∀ e : Expr, e.nodes.countP isCall = (e.nodes.map Expr.bare).countP isCall := by
    intro e
    rw [List.countP_map]
    refine List.countP_congr fun m _ => ?_
    cases m <;> rfl
  rw [callCount_eq, callCount_eq, hbare, hbare, ← Expr.nodes_bare, ← Expr.nodes_bare, h]

/-! ## What is drawn -/

/-- The text spells the expression, all names of which are right where there are `vars`
    variables. -/
structure Sound (vars : Nat) (e : Expr) (text : Text) : Prop where
  named : e.Named
  regular : ∀ m ∈ e.nodes, m.Regular vars
  laid : LaidOut e.lexemes text

/-- The text spells the arguments of a call. -/
structure SoundArgs (vars : Nat) (es : List Expr) (text : Text) : Prop where
  named : ∀ e ∈ es, e.Named
  regular : ∀ m ∈ es.flatMap Expr.nodes, m.Regular vars
  laid : LaidOut (Expr.argLexemes es) text

/-- What is left of the limit after a number of calls, which were no more than it allowed. -/
def Charged (limit : Int) (calls : Nat) (left : Int) : Prop :=
  left = limit - calls ∧ (calls : Int) ≤ max limit 0

theorem Charged.none (limit : Int) : Charged limit 0 limit := by
  unfold Charged
  omega

/-- What is left by one can be spent by another. -/
theorem Charged.trans {limit mid left : Int} {m n : Nat} (h : Charged limit m mid)
    (h' : Charged mid n left) : Charged limit (m + n) left := by
  unfold Charged at h h' ⊢
  omega

/-- A call costs one. -/
theorem Charged.call {limit left : Int} {n : Nat} (hlimit : 0 < limit)
    (h : Charged (limit - 1) n left) : Charged limit (n + 1) left := by
  unfold Charged at h ⊢
  omega

/-- The text is sound, and has been charged for. -/
structure Drawn (vars : Nat) {limit : Int} (e : Expr) (w : Written limit) : Prop where
  sound : Sound vars e w.text
  charged : Charged limit (callCount e) w.budget

/-- The text of arguments is sound, and has been charged for. -/
structure DrawnArgs (vars : Nat) {limit : Int} (es : List Expr) (w : Written limit) : Prop where
  sound : SoundArgs vars es w.text
  charged : Charged limit (callsIn es) w.budget

theorem below_ok (d : Draws) (n : Int) (h : 0 < n) :
    ∃ (i : Nat) (d' : Draws), d.below n = .ok (i, d') ∧ i < n := by
  have hmod := Nat.mod_lt (d.source d.used) (show 0 < n.toNat by omega)
  rw [Draws.below, if_neg (by omega)]
  exact ⟨_, _, rfl, by omega⟩

/-- A function is drawn with as many arguments as it insists on. -/
theorem head_ok (d : Draws) :
    ∃ f n d', head d = .ok (f, n, d') ∧ ∀ m, f.arity? = some m → m = n := by
  rcases below_ok d 3 (by decide) with ⟨i, d₁, hi, -⟩
  rw [head, hi]
  simp only [bind, Except.bind]
  -- A function that takes any number of arguments has that number drawn too.
  cases harity : (functionAt i).arity? with
  | some n => exact ⟨_, n, d₁, rfl, fun m hm => Option.some.inj (hm.symm.trans harity)⟩
  | none =>
      rcases below_ok d₁ 4 (by decide) with ⟨n, d₂, hn, -⟩
      simp only [hn]
      refine ⟨_, n, d₂, rfl, fun m hm => ?_⟩
      rw [harity] at hm
      simp only [reduceCtorEq] at hm

theorem all_isLetter_letter (i : Nat) (h : i < maxArgs) :
    (letter i).all Lexer.isLetter = true := by
  have hall : ∀ j < maxArgs, (letter j).all Lexer.isLetter = true := by decide
  exact hall i h

/-- A name as a variable. -/
def variableOf (name : Text) : Expr := .var ⟨name, ⟨0, 0⟩⟩ ⟨0, 0⟩

theorem sound_variableOf (vars i : Nat) (hvars : vars ≤ maxArgs) (hi : i < vars) :
    Sound vars (variableOf (letter i)) (letter i) where
  named := .var _ _ (List.cons_ne_nil _ _) (all_isLetter_letter i (by omega))
  regular := by
    have hregular : (variableOf (letter i)).Regular vars := ⟨i, hi, rfl⟩
    simpa [variableOf] using hregular
  laid := laidOut_singleton ⟨.ident, letter i⟩

theorem leaf_drawn (budget : Int) (vars : Nat) (hpos : 0 < vars) (hvars : vars ≤ maxArgs)
    (d : Draws) : ∃ w e, leaf budget vars d = .ok w ∧ Drawn vars e w := by
  rcases below_ok d vars (by omega) with ⟨i, d', hi, hlt⟩
  refine ⟨⟨letter i, budget, d', Int.le_refl budget⟩, variableOf (letter i), ?_, ?_, ?_⟩
  · rw [leaf, hi]
    rfl
  · exact sound_variableOf vars i hvars (by omega)
  · exact .none budget

/-- A function as the name of a call. -/
def callOf (f : Builtin) (es : List Expr) : Expr := .call ⟨f.name, ⟨0, 0⟩⟩ es ⟨0, 0⟩

/-- A call of sound arguments is sound, if they are as many as the function takes. -/
theorem sound_callOf (vars : Nat) (f : Builtin) (es : List Expr) (text : Text)
    (harity : ∀ m, f.arity? = some m → m = es.length) (h : SoundArgs vars es text) :
    Sound vars (callOf f es) (f.name ++ Text.ofString "(" ++ text ++ Text.ofString ")") where
  named := by
    refine .call _ _ _ ?_ ?_ h.named
    · cases f <;> exact List.cons_ne_nil _ _
    · cases f <;> rfl
  regular := by
    rw [callOf, Expr.nodes_call, List.forall_mem_cons]
    refine ⟨?_, h.regular⟩
    cases f with
    | not => exact Or.inl ⟨rfl, (harity 1 rfl).symm⟩
    | and => exact Or.inr (Or.inl rfl)
    | or => exact Or.inr (Or.inr rfl)
  laid := by
    -- From the end forwards: the parenthesis behind the arguments, the one before them, the name.
    have hclose := laidOut_singleton ⟨.rparen, [41]⟩
    have hargs := laidOut_append _ _ h.laid _ _ hclose fun w _ => by simp
    have hopen := laidOut_lexeme ⟨.lparen, [40]⟩ _ _ (fun _ _ => rfl) hargs
    have hname := laidOut_lexeme ⟨.ident, f.name⟩ _ _ (fun b hb => by
      rw [List.singleton_append, List.head?_cons, Option.some.injEq] at hb
      rw [← hb]
      rfl) hopen
    rw [callOf, Expr.lexemes, List.append_assoc, List.append_assoc]
    exact hname

theorem soundArgs_nil (vars : Nat) : SoundArgs vars [] [] where
  named := List.forall_mem_nil _
  regular := List.forall_mem_nil _
  laid := .nil [] rfl

theorem soundArgs_singleton (vars : Nat) (e : Expr) (text : Text) (h : Sound vars e text) :
    SoundArgs vars [e] text where
  named := List.forall_mem_singleton.mpr h.named
  regular := by
    rw [List.flatMap_singleton]
    exact h.regular
  laid := by
    rw [Expr.argLexemes, Expr.moreLexemes, List.append_nil]
    exact h.laid

/-- An argument and others, with a comma and a space between them. -/
theorem soundArgs_cons (vars : Nat) (e a : Expr) (as : List Expr) (s t : Text)
    (h : Sound vars e s) (hmore : SoundArgs vars (a :: as) t) :
    SoundArgs vars (e :: a :: as) (s ++ Text.ofString ", " ++ t) where
  named := List.forall_mem_cons.mpr ⟨h.named, hmore.named⟩
  regular := by
    rw [List.flatMap_cons, List.forall_mem_append]
    exact ⟨h.regular, hmore.regular⟩
  laid := by
    have hcomma := laidOut_lexeme ⟨.comma, [44]⟩ _ _ (fun _ _ => rfl)
      (laidOut_space _ _ hmore.laid)
    have hall := laidOut_append _ _ h.laid _ _ hcomma fun w _ => by simp
    rw [List.append_assoc]
    exact hall

/-! ## Drawing -/

/-- A call, once its parts have been drawn. -/
theorem expr_eq_call (budget vars : Int) (d d₁ d₂ : Draws) (coin n : Nat) (f : Builtin)
    (args : Written (budget - 1)) (hbudget : 0 < budget) (hcoin : d.below 3 = .ok (coin, d₁))
    (hcall : coin ≠ 0) (hhead : head d₁ = .ok (f, n, d₂))
    (hargs : arguments (budget - 1) vars d₂ n = .ok args) :
    ∃ w, expr budget vars d = .ok w ∧
      w.text = f.name ++ Text.ofString "(" ++ args.text ++ Text.ofString ")" ∧
      w.budget = args.budget := by
  rw [expr, dif_neg (by omega), hcoin]
  simp only [bind, Except.bind, if_neg hcall, hhead, hargs]
  exact ⟨_, rfl, rfl, rfl⟩

/-- Two arguments or more, once the first and the others have been drawn. -/
theorem arguments_eq_cons (budget vars : Int) (d : Draws) (n : Nat) (first : Written budget)
    (others : Written first.budget) (hfirst : expr budget vars d = .ok first)
    (hothers : arguments first.budget vars first.draws (n + 1) = .ok others) :
    ∃ w, arguments budget vars d (n + 2) = .ok w ∧
      w.text = first.text ++ Text.ofString ", " ++ others.text ∧ w.budget = others.budget := by
  rw [arguments, hfirst]
  simp only [bind, Except.bind, hothers]
  exact ⟨_, rfl, rfl, rfl⟩

section

variable (vars : Nat) (hpos : 0 < vars) (hvars : vars ≤ maxArgs)

/-- Arguments are drawn if expressions are, on any budget that is not larger. -/
theorem arguments_drawn (limit : Int)
    (hexpr : ∀ budget ≤ limit, ∀ d, ∃ w e, expr budget vars d = .ok w ∧ Drawn vars e w)
    (n : Nat) : ∀ budget ≤ limit, ∀ d, ∃ w es,
      arguments budget vars d n = .ok w ∧ DrawnArgs vars es w ∧ es.length = n := by
  induction n with
  | zero =>
      intro budget _ d
      refine ⟨⟨[], budget, d, Int.le_refl budget⟩, [], by rw [arguments], ⟨?_, ?_⟩, rfl⟩
      · exact soundArgs_nil vars
      · exact .none budget
  | succ n ih =>
      intro budget hbudget d
      rcases hexpr budget hbudget d with ⟨first, e, hfirst, he⟩
      cases n with
      | zero =>
          refine ⟨first, [e], by rw [arguments, hfirst], ⟨?_, ?_⟩, rfl⟩
          · exact soundArgs_singleton vars e first.text he.sound
          · rw [callsIn_cons]
            exact he.charged
      | succ n =>
          -- The others are drawn on what the first has left, which is no more than there was.
          rcases ih first.budget (Int.le_trans first.within hbudget) first.draws with
            ⟨others, es, hothers, hes, hlen⟩
          rcases List.exists_cons_of_length_eq_add_one hlen with ⟨a, as, rfl⟩
          rcases arguments_eq_cons budget vars d n first others hfirst hothers with
            ⟨w, hw, htext, hleft⟩
          refine ⟨w, e :: a :: as, hw, ⟨?_, ?_⟩, by rw [List.length_cons, hlen]⟩
          · rw [htext]
            exact soundArgs_cons vars e a as _ _ he.sound hes.sound
          · rw [callsIn_cons, hleft]
            exact he.charged.trans hes.charged

include hpos hvars

/-- An expression is drawn on any budget, by induction on the budget: the arguments of a call
    have less to spend than the call. -/
theorem expr_drawn (budget : Int) : ∀ d, ∃ w e,
    expr budget vars d = .ok w ∧ Drawn vars e w := by
  induction hn : budget.toNat using Nat.strongRecOn generalizing budget with
  | _ n ih =>
      intro d
      -- A variable is drawn where there is nothing to spend, and by one coin in three.
      by_cases hbudget : budget ≤ 0
      · rw [expr, dif_pos hbudget]
        exact leaf_drawn budget vars hpos hvars d
      · rcases below_ok d 3 (by decide) with ⟨coin, d₁, hcoin, -⟩
        by_cases hleaf : coin = 0
        · rw [expr, dif_neg hbudget, hcoin]
          simp only [bind, Except.bind, if_pos hleaf]
          exact leaf_drawn budget vars hpos hvars d₁
        · rcases head_ok d₁ with ⟨f, k, d₂, hhead, harity⟩
          -- The arguments have one call less to spend.
          have hexpr : ∀ b ≤ budget - 1, ∀ d, ∃ w e, expr b vars d = .ok w ∧ Drawn vars e w :=
            fun b hb => ih b.toNat (by omega) b rfl
          rcases arguments_drawn vars (budget - 1) hexpr k _ (Int.le_refl _) d₂ with
            ⟨args, es, hargs, hes, rfl⟩
          rcases expr_eq_call budget vars d d₁ d₂ coin _ f args (by omega) hcoin hleaf hhead
            hargs with ⟨w, hw, htext, hleft⟩
          refine ⟨w, callOf f es, hw, ?_, ?_⟩
          · rw [htext]
            exact sound_callOf vars f es args.text harity hes.sound
          · rw [callOf, callCount_call, hleft]
            exact hes.charged.call (by omega)

end

end Sampler

/-! ## Reading back -/

/-- The text is a way of writing the number of the bits and the bits. -/
def Declares (bits : List Bool) (text : Text) : Prop :=
  ∃ (count : Text) (numerals : List Text), IsNumeral bits.length count ∧
    List.Forall₂ (fun bit s => IsNumeral bit.toNat s) bits numerals ∧
    LaidOut (⟨.number, count⟩ :: numerals.map (Lexeme.mk .number)) text

/-- The first byte of a text that lays out a name and more is not a digit. -/
theorem not_digit_of_laidOut (name : Text) (ws : List Lexeme) (text : Text) (hne : name ≠ [])
    (hname : name.all Lexer.isLetter = true) (h : LaidOut (⟨.ident, name⟩ :: ws) text) (b : UInt8)
    (hb : text.head? = some b) : Token.isDigit b = false := by
  cases h with
  | cons gap _ _ rest hgap _ _ =>
      -- The first byte is a blank of the gap, or the first letter of the name.
      cases gap with
      | cons c gap =>
          rw [List.all_cons, Bool.and_eq_true] at hgap
          have hc : c = b := Option.some.inj hb
          exact hc ▸ (Lexer.not_digit_not_letter_of_isSpace c hgap.1).1
      | nil =>
          rcases List.exists_cons_of_ne_nil hne with ⟨c, cs, rfl⟩
          rw [List.all_cons, Bool.and_eq_true] at hname
          have hc : c = b := Option.some.inj hb
          exact hc ▸ Lexer.not_digit_of_isLetter c hname.1

/-- An expression begins with a name, and so with no digit. -/
theorem Expr.Named.not_digit {e : Expr} (he : e.Named) (text : Text) (h : LaidOut e.lexemes text)
    (b : UInt8) (hb : text.head? = some b) : Token.isDigit b = false := by
  cases he with
  | var id s hne hname => exact not_digit_of_laidOut id.name _ text hne hname h b hb
  | call id args s hne hname _ => exact not_digit_of_laidOut id.name _ text hne hname h b hb

/-- A sound text behind a declaration is parsed as the declared bits and an expression with as
    many calls, and has a value. -/
theorem parse_declared (bits : List Bool) (hbits : bits.length ≤ maxArgs) (front text : Text)
    (hfront : Declares bits front) (e : Expr) (h : Sampler.Sound bits.length e text) :
    ∃ p b, parse (front ++ text) = .ok p ∧ p.args = bits ∧ p.eval = .ok b ∧
      Sampler.callCount p.expr = Sampler.callCount e := by
  rcases hfront with ⟨count, numerals, hcount, hnumerals, hlaid⟩
  have hwritten : Program.Written ⟨bits, e⟩ (front ++ text) := by
    refine ⟨_, .mk bits e count numerals hcount hnumerals, ?_⟩
    refine laidOut_append _ _ hlaid _ _ h.laid fun w hw b hb => ?_
    -- All lexemes of a declaration are numbers, and the expression begins with a name.
    have hkind : w.kind = .number := by
      rcases List.mem_cons.mp hw with rfl | hw
      · rfl
      · rcases List.mem_map.mp hw with ⟨s, -, rfl⟩
        rfl
    rw [Lexeme.goesOn, hkind]
    exact h.named.not_digit text h.laid b hb
  rcases Program.parse_written ⟨bits, e⟩ hbits h.named _ hwritten with ⟨e', hparse, hbare⟩
  rcases (Program.exists_eval_iff_regular ⟨bits, e'⟩ hbits (solid_of_parse _ _ hparse)).mpr
    (Expr.regular_of_bare _ e e' hbare h.regular) with ⟨b, hb⟩
  exact ⟨⟨bits, e'⟩, b, hparse, rfl, hb, Sampler.callCount_of_bare e e' hbare⟩

/-- Numerals with spaces between them. -/
theorem laidOut_joinWith (numerals : List Text) :
    LaidOut (numerals.map (Lexeme.mk .number)) (Text.joinWith [Text.space] numerals) := by
  induction numerals with
  | nil => exact .nil [] rfl
  | cons s numerals ih =>
      cases numerals with
      | nil => exact laidOut_singleton ⟨.number, s⟩
      | cons t numerals =>
          rw [Text.joinWith_cons, List.append_assoc]
          exact laidOut_lexeme ⟨.number, s⟩ _ _ (by simp) (laidOut_space _ _ ih)

/-- The number of the bits and the bits with spaces between them and behind them. -/
theorem declares_joinWith (bits : List Bool) :
    Declares bits (Text.ofNat bits.length ++ [Text.space] ++
      Text.joinWith [Text.space] (bits.map fun bit => Text.ofNat bit.toNat) ++ [Text.space]) := by
  refine ⟨Text.ofNat bits.length, bits.map fun bit => Text.ofNat bit.toNat,
    isNumeral_ofNat bits.length, ?_, ?_⟩
  · rw [List.forall₂_map_right_iff]
    exact List.forall₂_same.mpr fun bit _ => isNumeral_ofNat bit.toNat
  · have hbits := laidOut_append _ _
      (laidOut_joinWith (bits.map fun bit => Text.ofNat bit.toNat)) [] [Text.space]
      (.nil [Text.space] rfl) fun w _ => by simp
    rw [List.append_nil] at hbits
    rw [List.append_assoc, List.append_assoc]
    exact laidOut_lexeme ⟨.number, Text.ofNat bits.length⟩ _ _ (by simp)
      (laidOut_space _ _ hbits)

namespace Sampler

/-- Random bits are the numerals of bits, by induction on their number. -/
theorem bitList_ok (n : Nat) : ∀ d : Draws, ∃ (bits : List Bool) (d' : Draws),
    bitList d n = .ok (bits.map fun bit => Text.ofNat bit.toNat, d') ∧ bits.length = n := by
  induction n with
  | zero => exact fun d => ⟨[], d, rfl, rfl⟩
  | succ n ih =>
      intro d
      rcases below_ok d 2 (by decide) with ⟨i, d₁, hi, hlt⟩
      rcases ih d₁ with ⟨bits, d₂, hbits, hlen⟩
      -- A number below two is the bit that says whether it is one.
      have hbit := Bool.toNat_decide_eq_one i (by omega)
      refine ⟨decide (i = 1) :: bits, d₂, ?_, by rw [List.length_cons, hlen]⟩
      rw [bitList, hi]
      simp only [bind, Except.bind, hbits]
      rw [List.map_cons, hbit]
      rfl

/-- A number of random bits is a list of bits, with spaces between them. -/
theorem bits_ok (n : Nat) (d : Draws) : ∃ (bs : List Bool) (d' : Draws),
    bits d n = .ok (Text.joinWith [Text.space] (bs.map fun bit => Text.ofNat bit.toNat), d') ∧
      bs.length = n := by
  rcases bitList_ok n d with ⟨bs, d', hbs, hlen⟩
  refine ⟨bs, d', ?_, hlen⟩
  rw [bits, if_neg (by omega), Int.toNat_natCast, hbs]
  rfl

/-- A random program without variables is always the same. -/
theorem program_zero (size : Int) (d : Draws) : ∃ t d' p b, program size 0 d = .ok (t, d') ∧
    parse t = .ok p ∧ p.args.length = 0 ∧ p.eval = .ok b := by
  have hfront : Declares [] (Text.ofString "0 ") :=
    ⟨[48], [], by decide, .nil,
      laidOut_lexeme ⟨.number, [48]⟩ [] [Text.space] (by simp) (.nil _ rfl)⟩
  have hsound : Sound 0 (callOf .and []) (Text.ofString "and()") :=
    sound_callOf 0 .and [] [] (fun m hm => by simp only [Builtin.arity?, reduceCtorEq] at hm)
      (soundArgs_nil 0)
  rcases parse_declared [] (by decide) _ _ hfront _ hsound with ⟨p, b, hparse, hargs, hb, -⟩
  exact ⟨_, d, p, b, rfl, hparse, by rw [hargs, List.length_nil], hb⟩

/-- A random program with variables declares them and is parsed. -/
theorem program_pos (size : Int) (vars : Nat) (hpos : 0 < vars) (hvars : vars ≤ maxArgs)
    (d : Draws) : ∃ t d' p b, program size vars d = .ok (t, d') ∧
      parse t = .ok p ∧ p.args.length = vars ∧ p.eval = .ok b := by
  rcases bits_ok vars d with ⟨bs, d₁, hbs, hlen⟩
  rcases expr_drawn vars hpos hvars size d₁ with ⟨w, e, hw, he⟩
  have hsound := he.sound
  rw [← hlen] at hsound
  rcases parse_declared bs (by omega) _ w.text (declares_joinWith bs) e hsound with
    ⟨p, b, hparse, hargs, hb, -⟩
  refine ⟨_, w.draws, p, b, ?_, hparse, by rw [hargs, hlen], hb⟩
  rw [program, if_neg (by omega), hbs]
  simp only [bind, Except.bind, hw]
  rw [Text.ofInt, if_neg (by omega), Int.natAbs_natCast, hlen]
  rfl

/-- Random expressions and random programs, for every outcome of the draws. An expression can
    be put behind any declaration of as many bits as it was given variables: it is parsed, has
    a value, and has no more calls than were asked for, and what it left of its budget is the
    budget without them. A program declares as many bits as were asked for, is parsed and has
    a value. -/
theorem draws_are_sound :
    (∀ (size vars : Int) (d : Draws), 1 ≤ vars → vars ≤ 26 → ∃ w, expr size vars d = .ok w ∧
      ∀ (bits : List Bool) (front : Text), bits.length = vars → Declares bits front →
        ∃ p b, parse (front ++ w.text) = .ok p ∧ p.args = bits ∧ p.eval = .ok b ∧
          (callCount p.expr : Int) ≤ max size 0 ∧ w.budget = size - callCount p.expr) ∧
    ∀ (size vars : Int) (d : Draws), 0 ≤ vars → vars ≤ 26 → ∃ t d' p b,
      program size vars d = .ok (t, d') ∧ parse t = .ok p ∧ p.args.length = vars ∧
        p.eval = .ok b := by
  have hmax : maxArgs = 26 := rfl
  constructor
  · intro size vars d hpos hvars
    lift vars to Nat using by omega
    rcases expr_drawn vars (by omega) (by omega) size d with ⟨w, e, hw, he⟩
    refine ⟨w, hw, fun bits front hlen hfront => ?_⟩
    rw [Int.natCast_inj] at hlen
    have hsound := he.sound
    rw [← hlen] at hsound
    rcases parse_declared bits (by omega) front w.text hfront e hsound with
      ⟨p, b, hparse, hargs, hb, hcalls⟩
    -- The calls that are counted are those of the parsed tree, which are as many as were charged
    -- for.
    have hcharged := he.charged
    rw [← hcalls] at hcharged
    exact ⟨p, b, hparse, hargs, hb, hcharged.2, hcharged.1⟩
  · intro size vars d hpos hvars
    lift vars to Nat using hpos
    rcases Nat.eq_zero_or_pos vars with rfl | hpos
    · rcases program_zero size d with ⟨t, d', p, b, ht, hparse, hargs, hb⟩
      exact ⟨t, d', p, b, ht, hparse, by rw [hargs], hb⟩
    · rcases program_pos size vars hpos (by omega) d with ⟨t, d', p, b, ht, hparse, hargs, hb⟩
      exact ⟨t, d', p, b, ht, hparse, by rw [hargs], hb⟩

/-- Draws for a conjunction of two arguments, a negation and a variable. -/
def nestedDraws : Draws := ⟨fun i => [1, 1, 2, 1, 0, 0, 1].getD i 0, 0⟩

theorem text_nestedDraws : (expr 2 2 nestedDraws).map Written.text =
    .ok (Text.ofString "and(not(A), B)") := by
  have hspelt : Text.ofString "and(not(A), B)" = Text.ofString "and" ++ Text.ofString "(" ++
      (Text.ofString "not" ++ Text.ofString "(" ++ [65] ++ Text.ofString ")" ++
        Text.ofString ", " ++ [66]) ++ Text.ofString ")" := by decide
  rw [hspelt]
  simp [expr, arguments, head, leaf, Draws.below, nestedDraws, functionAt, Builtin.arity?,
    Builtin.name, Except.map, bind, Except.bind, pure, Except.pure]

theorem draws_are_sound_nested :
    (1 : Int) ≤ 2 ∧ (2 : Int) ≤ 26 ∧ Declares [true, false] (Text.ofString "2 1 0 ") ∧
    ∃ w, expr 2 2 nestedDraws = .ok w ∧ w.text = Text.ofString "and(not(A), B)" ∧
      ∃ p b, parse (Text.ofString "2 1 0 " ++ w.text) = .ok p ∧ p.args = [true, false] ∧
        p.eval = .ok b ∧ (callCount p.expr : Int) ≤ 2 ∧ w.budget = 2 - callCount p.expr := by
  have hfront : Declares [true, false] (Text.ofString "2 1 0 ") := by
    have hspelt : Text.ofString "2 1 0 " = Text.ofNat 2 ++ [Text.space] ++
        Text.joinWith [Text.space] ([true, false].map fun bit => Text.ofNat bit.toNat) ++
        [Text.space] := by decide +kernel
    rw [hspelt]
    exact declares_joinWith [true, false]
  rcases draws_are_sound.1 2 2 nestedDraws (by decide) (by decide) with ⟨w, hw, hreads⟩
  have htext := text_nestedDraws
  rw [hw] at htext
  exact ⟨by decide, by decide, hfront, w, hw, Except.ok.inj htext,
    hreads [true, false] _ rfl hfront⟩

end Sampler

end BitLogic
