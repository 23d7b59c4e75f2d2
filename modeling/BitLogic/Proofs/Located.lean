import BitLogic.Diagnostic
import BitLogic.Interpreter
import BitLogic.Proofs.Agreement
import BitLogic.Proofs.Nesting
import BitLogic.Proofs.Trace

/-!
# Failures Are Located

Whatever goes wrong with a source is reported as a fault at a place in it. No source makes
any stage break off.

There are two sorts of places. A source that cannot be parsed is at fault at one of its
tokens. In a source that can, some node is: a variable that is not bound, or a call that
means no function or has the wrong number of arguments. `Located` lists these cases with
what the source has at the place. A variable is its own name, and a call begins with the
name that is called and ends with a closing parenthesis, which is what the placing of nodes
says about them.

The evaluator, the checker and the compiler find faults in different ways, but all of
their faults are problems of single nodes. Hence the work is done once, for a node
(`located_of_problem?`), and each of the three only has to be traced back to nodes.

That nothing breaks off has a reason for each way of breaking. Tokens of a source lie within
it, so they can be read. No more bits are parsed than there are letters. A parsed tree has
no blank nodes. A function is finished when its program is. And a negation, which looks at
its first value, is called with one argument or not at all.

## Main definitions

* `Reported`: An outcome is a value or a fault, and never a breach.
* `Located`: Where a fault of a source lies.
* `Span.Shown`: A span is shown as it is.

## Theorems

* `Interpreter.value_stage`: A stage with its records has the outcome of the stage.
* `Interpreter.value_parse`, `Interpreter.value_run`, `Interpreter.value_check`,
  `Interpreter.value_compile`: The records leave the outcomes alone.
* `Span.shown_of_within`: A span in range is shown as it is.
* `lex_within`: The tokens of a source lie within it.
* `shown_of_located`: What is located is shown as it is.
* `fault_of_parse`, `located_of_parse`: A parse fault lies at a token.
* `Expr.slice_of_placed`: What the source has at a call.
* `Builtin.resolve_not`: A negation that is carried out has one argument.
* `located_of_problem?`: The problem of a node lies at the node.
* `Symbols.mem_foldl_visit`: A check reports problems of nodes only.
* `Program.located_of_check`, `Program.located_of_eval`, `located_of_check`: Faults of
  the back ends are located.
* `Program.compile_with_eval`: Compiling succeeds where evaluation does.
* `reported_bind`: What follows parsing.
* `reported_parse`, `reported_evaluate`, `reported_compile`, `reported_check`: Nothing
  breaks off.
* `failures_are_located`: All failures of a source are located in it.
* `check_hapless`, `failures_are_located_hapless`: A source with a problem of each sort.
-/

namespace BitLogic

/-! ## Outcomes of the stages -/

/-- The outcome is a value, or a fault of which something is known. It is no breach. -/
inductive Reported {α : Type} (known : Fault → Prop) : Except Stop α → Prop
  | value (a : α) : Reported known (.ok a)
  | fault (f : Fault) (h : known f) : Reported known (.error (.fault f))

namespace Interpreter

/-- The outcome of a stage is that of what it does, behind the outcome before it. -/
theorem value_stage {α β : Type} (name : String) (prior : Log.Logged (Except Stop α))
    (next : α → Except Stop β) (success : β → Log.Record) :
    (stage name prior next success).value = prior.value >>= next := by
  unfold stage
  cases prior.value with
  | error stop => rfl
  | ok a =>
      simp only [bind, Except.bind]
      cases next a <;> rfl

@[simp]
theorem value_parse (src : Text) : (parse src).value = BitLogic.parse src :=
  value_stage _ _ _ _

@[simp]
theorem value_run (src : Text) : (run src).value = evaluate src := by
  rw [run, value_stage, value_parse, evaluate]

@[simp]
theorem value_check (src : Text) : (check src).value = BitLogic.check src := by
  rw [check, value_stage, value_parse, BitLogic.check]
  congr 1
  funext p
  cases p.check <;> rfl

@[simp]
theorem value_compile (src : Text) : (compile src).value = BitLogic.compile src := by
  simp only [compile, value_stage, value_parse, BitLogic.compile]
  cases BitLogic.parse src with
  | error stop => rfl
  | ok p =>
      simp only [bind, Except.bind, Program.compile]
      -- Lowering and printing are two stages, of which the first one decides.
      cases IR.ofProgram p with
      | error stop => rfl
      | ok fs =>
          simp only
          cases IR.moduleText fs <;> rfl

end Interpreter

/-! ## Places -/

/-- The span is shown as it is: it lies in the source, moving it there changes nothing, and
    the text that a diagnostic marks is what the source has at the span. -/
structure Span.Shown (src : Text) (s : Span) : Prop where
  within : s.Within src.length
  clamp : s.clamp src.length = s
  offending : src.slice? s.start s.stop = some (Diagnostic.sections src s).offending

/-- Where a fault of a source lies, and what the source has there. -/
inductive Located (src : Text) : Fault → Prop
  | token (f : Fault) (t : Token) (hparse : parse src = .error (.fault f)) (ht : t ∈ lex src)
      (hspan : f.span = t.span) : Located src f
  | unbound (p : Program) (id : Ident) (hparse : parse src = .ok p)
      (hnode : .var id id.span ∈ p.expr.nodes)
      (hslice : src.slice? id.span.start id.span.stop = some id.name) :
      Located src ⟨.undefinedVariable id.name, id.span⟩
  | unknown (p : Program) (id : Ident) (args : List Expr) (s : Span) (inner : Text)
      (hparse : parse src = .ok p) (hnode : .call id args s ∈ p.expr.nodes)
      (hslice : src.slice? s.start s.stop = some (id.name ++ inner ++ [41])) :
      Located src ⟨.undefinedFunction id.name, s⟩
  | arity (p : Program) (id : Ident) (args : List Expr) (s : Span) (inner : Text) (wanted : Nat)
      (hparse : parse src = .ok p) (hnode : .call id args s ∈ p.expr.nodes)
      (hslice : src.slice? s.start s.stop = some (id.name ++ inner ++ [41])) :
      Located src ⟨.arity id.name wanted args.length, s⟩

/-- A span that lies in the source is shown as it is. -/
theorem Span.shown_of_within (src : Text) (s : Span) (h : s.Within src.length) : s.Shown src := by
  rcases h with ⟨h0, h1, h2⟩
  -- Both ends are in range and in order, so there is nothing to move.
  have hclamp : s.clamp src.length = s := by
    rw [clamp, show min (max s.start 0) src.length = s.start by omega,
      show min (max s.stop 0) src.length = s.stop by omega, between, if_neg (by omega)]
  refine ⟨⟨h0, h1, h2⟩, hclamp, ?_⟩
  have hlen : s.stop.toNat - s.start.toNat = (s.stop - s.start).toNat := by omega
  rw [Text.slice?, if_pos ⟨h0, h1, h2⟩, Diagnostic.sections, hclamp, List.drop_take, hlen]

/-- The tokens of a source lie within it, so what they spell can be read. -/
theorem lex_within (src : Text) (t : Token) (ht : t ∈ lex src) : t.span.Within src.length := by
  rcases lex_inOrder src with ⟨body, hlex, hin, -⟩
  rw [hlex, List.mem_append, List.mem_singleton] at ht
  rcases ht with ht | ht
  · have hbounds := hin.bounds t ht
    exact ⟨hbounds.1, Int.le_of_lt hbounds.2.1, hbounds.2.2⟩
  · rw [ht]
    exact Token.within_endAt src.length

theorem shown_of_located (src : Text) (f : Fault) (h : Located src f) : f.span.Shown src := by
  refine f.span.shown_of_within src ?_
  cases h with
  | token _ t hparse ht hspan =>
      rw [hspan]
      exact lex_within src t ht
  | unbound p id hparse hnode hslice => exact Text.within_of_slice? src _ _ hslice
  | unknown p id args s inner hparse hnode hslice => exact Text.within_of_slice? src _ _ hslice
  | arity p id args s inner wanted hparse hnode hslice =>
      exact Text.within_of_slice? src _ _ hslice

/-- A source that cannot be parsed is at fault at one of its tokens, and all tokens before
    that one are taken. The token is of a kind that is not expected, or what it spells is
    wrong. -/
theorem fault_of_parse (src : Text) (stop : Stop) (h : parse src = .error stop) :
    ∃ f pre t post last, stop = .fault f ∧ lex src = pre ++ t :: post ∧
      Parser.Advances src .count pre last ∧ f.span = t.span ∧
      (f.cause.OfKind t.kind ∨ Parser.Wrong src t stop) := by
  rw [parse_eq_drive] at h
  rcases Parser.drive_ends src (lex src) .count with ⟨pre, t, last, hpre, hadv, hend⟩
  -- The `eof` that ends the tokens is not taken, so the token stands before it or is it.
  have hsplit : ∃ post, lex src = pre ++ t :: post := by
    rcases lex_ends src with ⟨body, hlex, -⟩
    rcases hpre with ⟨more, hmore⟩
    rcases List.eq_nil_or_concat more with rfl | ⟨rest, z, rfl⟩
    · rw [List.append_nil] at hmore
      have hall := (List.append_inj' hmore rfl).1
      have heof : Token.endAt src.length ∈ pre := by
        rw [hall, hlex]
        exact List.mem_append_right body List.mem_cons_self
      exact absurd rfl (Parser.not_eof_of_advances hadv _ heof)
    · rw [List.concat_eq_append, ← List.append_assoc] at hmore
      refine ⟨rest, (List.append_inj' hmore rfl).1.symm.trans ?_⟩
      rw [List.append_assoc, List.singleton_append]
  rcases hsplit with ⟨post, hlex⟩
  have ht : t ∈ lex src := by
    rw [hlex]
    exact List.mem_append_right pre List.mem_cons_self
  -- The token was refused, for its kind, or it was taken and what it spells is wrong.
  rcases hend with ⟨-, hrun⟩ | ⟨stop', htake, hrun⟩
  · rcases Parser.refuse_cases last t with ⟨p, hok, -⟩ | ⟨c, hc, hfault⟩
    · rw [hrun, hok] at h
      simp only [reduceCtorEq] at h
    · rw [hrun, hfault, Except.error.injEq] at h
      exact ⟨⟨c, t.span⟩, pre, t, post, last, h.symm, hlex, hadv, rfl, Or.inl hc⟩
  · rw [hrun, Except.error.injEq] at h
    rw [h] at htake
    rcases Parser.take?_error src last t (lex_within src t ht) stop htake with ⟨c, hstop⟩
    exact ⟨⟨c, t.span⟩, pre, t, post, last, hstop, hlex, hadv, rfl,
      Or.inr (Parser.wrong_of_take? src last t stop htake)⟩

/-- A source that cannot be parsed has its fault at one of its tokens. -/
theorem located_of_parse (src : Text) (stop : Stop) (h : parse src = .error stop) :
    ∃ f, stop = .fault f ∧ Located src f := by
  rcases fault_of_parse src stop h with ⟨f, pre, t, post, -, rfl, hlex, -, hspan, -⟩
  refine ⟨f, rfl, .token f t h ?_ hspan⟩
  rw [hlex]
  exact List.mem_append_right pre List.mem_cons_self

/-! ## Nodes at fault -/

/-- At a call the source has the name that is called, and a closing parenthesis last. -/
theorem Expr.slice_of_placed (src : Text) (id : Ident) (args : List Expr) (s : Span)
    (h : (Expr.call id args s).Placed src) :
    ∃ inner, src.slice? s.start s.stop = some (id.name ++ inner ++ [41]) := by
  cases h with
  | call _ _ _ hid hstart hclose hinside hargs =>
      rcases (Text.slice?_eq_some_iff _ _ _ _).mp hid.spelt with
        ⟨before, after, rfl, hlo, hhi⟩
      rcases hclose with ⟨i, hi, hbyte⟩
      have hlt := hargs.lt
      -- The parenthesis stands behind the name, so it is a byte of what follows the name.
      rw [List.getElem?_append_right (by rw [List.length_append]; omega),
        List.length_append] at hbyte
      generalize hj : i - (before.length + id.name.length) = j at hbyte
      rw [List.getElem?_eq_some_iff] at hbyte
      rcases hbyte with ⟨hjlen, hbyte⟩
      have hafter : after = after.take j ++ [41] ++ after.drop (j + 1) := by
        rw [← hbyte, List.append_assoc, List.singleton_append, List.getElem_cons_drop,
          List.take_append_drop]
      refine ⟨after.take j, (Text.slice?_eq_some_iff _ _ _ _).mpr
        ⟨before, after.drop (j + 1), ?_, by omega, ?_⟩⟩
      · conv_lhs => rw [hafter]
        simp only [List.append_assoc]
      · rw [List.length_append, List.length_append, List.length_take, List.length_singleton]
        omega

/-- A negation that is carried out has its one argument. -/
theorem Builtin.resolve_not (id : Ident) (n : Nat) (s : Span) (h : resolve id n s = .ok .not) :
    n = 1 := by
  exact ((arity_of_resolve id n s .not h).2 1 rfl).symm

/-- The problem of a node lies at the node. -/
theorem located_of_problem? (src : Text) (p : Program) (hparse : parse src = .ok p) (e : Expr)
    (he : e ∈ p.expr.nodes) (s : Symbols) (f : Fault) (h : s.problem? e = some f) :
    Located src f := by
  have hplaced := placed_of_parse src p hparse e he
  cases e with
  | var id span =>
      rw [Symbols.problem?, Option.ite_none_left_eq_some, Option.some.injEq] at h
      rw [← h.2]
      cases hplaced with
      | var _ hid => exact .unbound p id hparse he hid.spelt
  | call id args span =>
      rcases Expr.slice_of_placed src id args span hplaced with ⟨inner, hslice⟩
      rw [Symbols.problem?] at h
      rcases Builtin.resolve_cases id args.length span with
        ⟨g, -, -, hres⟩ | ⟨-, hres⟩ | ⟨g, wanted, -, -, -, hres⟩
      · rw [hres] at h
        simp only [reduceCtorEq] at h
      · rw [hres, Option.some.injEq] at h
        rw [← h]
        exact .unknown p id args span inner hparse he hslice
      · rw [hres, Option.some.injEq] at h
        rw [← h]
        exact .arity p id args span inner wanted hparse he hslice
  -- A blank has no place, so no source has one.
  | blank span => cases hplaced

/-- A check reports problems of nodes only: a step adds the problem of one node at most. -/
theorem Symbols.mem_foldl_visit (vs : List Visit) (f : Fault) : ∀ s : Symbols,
    f ∈ (vs.foldl visit s).problems →
      f ∈ s.problems ∨ ∃ v ∈ vs, problem? ⟨s.bindings, []⟩ v.node = some f := by
  induction vs with
  | nil => exact fun s hf => Or.inl hf
  | cons v vs ih =>
      intro s hf
      rw [List.foldl_cons] at hf
      rcases ih (s.visit v) hf with hf | ⟨u, hu, hproblem⟩
      · -- Reported by now, but not before: then it is the problem of this node.
        unfold visit at hf
        cases hproblem : s.problem? v.node with
        | none =>
            rw [hproblem] at hf
            exact Or.inl hf
        | some g =>
            rw [hproblem] at hf
            simp only [report] at hf
            split at hf
            · exact Or.inl hf
            · rw [List.mem_append, List.mem_singleton] at hf
              rcases hf with hf | rfl
              · exact Or.inl hf
              · rw [problem?_bindings] at hproblem
                exact Or.inr ⟨v, List.mem_cons_self, hproblem⟩
      · rw [visit_bindings] at hproblem
        exact Or.inr ⟨u, List.mem_cons_of_mem v hu, hproblem⟩

/-- All problems of a parsed program are located in its source. -/
theorem Program.located_of_check (src : Text) (p : Program) (hparse : parse src = .ok p)
    (problems : List Fault) (h : p.check = .ok problems) : ∀ f ∈ problems, Located src f := by
  intro f hf
  have henv := Env.ofArgs_eq p.args (length_args_of_parse src p hparse)
  rw [check, Symbols.ofArgs, henv] at h
  rw [← Except.ok.inj h] at hf
  rcases Symbols.mem_foldl_visit _ f _ hf with hnil | ⟨v, hv, hproblem⟩
  · exact absurd hnil List.not_mem_nil
  · have hnode : v.node ∈ p.expr.nodes := List.mem_map.mpr ⟨v, hv, rfl⟩
    exact located_of_problem? src p hparse v.node hnode _ f hproblem

/-! ## Back ends -/

/-- A program is compiled if it has a value, and else compiling stops where evaluation
    does. -/
theorem Program.compile_with_eval (p : Program) (hargs : p.args.length ≤ maxArgs) :
    (∃ t b, p.compile = .ok t ∧ p.eval = .ok b) ∨
      ∃ stop, p.compile = .error stop ∧ p.eval = .error stop := by
  rcases IR.build_empty p hargs with ⟨body, ret, hbuild, hbits⟩ | ⟨stop, hstop, hbits⟩
  · rcases hbits p.args rfl with ⟨b, hb, -⟩
    -- The function is finished, so it has a text.
    have htext : ∃ t, p.compile = .ok t := by
      rw [compile, IR.ofProgram, hbuild]
      exact ⟨_, rfl⟩
    rcases htext with ⟨t, ht⟩
    exact Or.inl ⟨t, b, ht, hb⟩
  · refine Or.inr ⟨stop, ?_, hbits p.args rfl⟩
    rw [compile, IR.ofProgram]
    cases hbuild : IR.Builder.empty.build p with
    | mk found b =>
        rw [hbuild] at hstop
        simp only at hstop
        rw [hstop]
        rfl

/-- Where evaluation of a parsed program stops, there is a fault located in the source. -/
theorem Program.located_of_eval (src : Text) (p : Program) (hparse : parse src = .ok p)
    (stop : Stop) (h : p.eval = .error stop) : ∃ f, stop = .fault f ∧ Located src f := by
  have hargs := length_args_of_parse src p hparse
  rcases p.check_eq _ (Env.ofArgs_eq p.args hargs) with ⟨problems, hcheck, -⟩
  -- Evaluation stops at the first problem of a check.
  rw [p.eval_error_iff_head? hargs (solid_of_parse src p hparse) problems hcheck stop,
    Option.map_eq_some_iff] at h
  rcases h with ⟨f, hf, rfl⟩
  exact ⟨f, rfl, located_of_check src p hparse problems hcheck f (List.mem_of_mem_head? hf)⟩

theorem reported_parse (src : Text) : Reported (Located src) (parse src) := by
  cases hparse : parse src with
  | ok p => exact .value p
  | error stop =>
      rcases located_of_parse src stop hparse with ⟨f, rfl, hf⟩
      exact .fault f hf

/-- What follows parsing has to be looked at for parsed programs only. -/
theorem reported_bind {α : Type} (src : Text) (next : Program → Except Stop α)
    (h : ∀ p, parse src = .ok p → Reported (Located src) (next p)) :
    Reported (Located src) (parse src >>= next) := by
  cases hparse : parse src with
  | ok p => exact h p hparse
  | error stop =>
      have hreported := reported_parse src
      rw [hparse] at hreported
      cases hreported with
      | fault f hf => exact .fault f hf

theorem reported_evaluate (src : Text) : Reported (Located src) (evaluate src) := by
  refine reported_bind src _ fun p hparse => ?_
  cases heval : p.eval with
  | ok b => exact .value b
  | error stop =>
      rcases p.located_of_eval src hparse stop heval with ⟨f, rfl, hf⟩
      exact .fault f hf

theorem reported_compile (src : Text) : Reported (Located src) (compile src) := by
  refine reported_bind src _ fun p hparse => ?_
  -- Compiling stops where evaluation does, so its faults have been located.
  rcases p.compile_with_eval (length_args_of_parse src p hparse) with
    ⟨t, b, hcompile, -⟩ | ⟨stop, hcompile, heval⟩
  · rw [hcompile]
    exact .value t
  · rcases p.located_of_eval src hparse stop heval with ⟨f, rfl, hf⟩
    rw [hcompile]
    exact .fault f hf

theorem reported_check (src : Text) : Reported (Located src) (check src) := by
  refine reported_bind src _ fun p hparse => ?_
  have hargs := length_args_of_parse src p hparse
  rcases p.check_eq _ (Env.ofArgs_eq p.args hargs) with ⟨problems, hcheck, -⟩
  rw [hcheck]
  exact .value problems

theorem located_of_check (src : Text) (problems : List Fault) (h : check src = .ok problems) :
    ∀ f ∈ problems, Located src f := by
  rw [check, Except.bind_eq_ok_iff] at h
  rcases h with ⟨p, hparse, h⟩
  cases hcheck : p.check with
  | error b => simp only [hcheck, reduceCtorEq] at h
  | ok problems' =>
      simp only [hcheck, Except.ok.injEq] at h
      rw [h] at hcheck
      exact p.located_of_check src hparse problems hcheck

/-- Parsing, running, checking and compiling a source gives an answer or a fault that is located in
    the source, and all problems that a check lists are. What is located is shown as it is.
    A negation that is carried out has an argument. -/
theorem failures_are_located (src : Text) :
    Reported (Located src) (Interpreter.parse src).value ∧
    Reported (Located src) (Interpreter.run src).value ∧
    Reported (Located src) (Interpreter.compile src).value ∧
    Reported (Located src) (Interpreter.check src).value ∧
    (∀ problems, (Interpreter.check src).value = .ok problems →
      ∀ f ∈ problems, Located src f) ∧
    (∀ f, Located src f → f.span.Shown src) ∧
    ∀ id (args : List Expr) s, Builtin.resolve id args.length s = .ok .not →
      ∃ a, args = [a] := by
  simp only [Interpreter.value_parse, Interpreter.value_run, Interpreter.value_compile,
    Interpreter.value_check]
  refine ⟨reported_parse src, reported_evaluate src, reported_compile src, reported_check src,
    located_of_check src, shown_of_located src, ?_⟩
  intro id args s hnot
  exact List.length_eq_one_iff.mp (Builtin.resolve_not id args.length s hnot)

/-- A source with a problem of each sort. -/
def hapless : Text := Text.ofString "1 0 or(B, xor(A), not())"

/-- The problems of that source. -/
def haplessProblems : List Fault :=
  [⟨.undefinedVariable (Text.ofString "B"), ⟨7, 8⟩⟩,
    ⟨.undefinedFunction (Text.ofString "xor"), ⟨10, 16⟩⟩,
    ⟨.arity (Text.ofString "not") 1 0, ⟨18, 23⟩⟩]

theorem check_hapless : check hapless = .ok haplessProblems := by
  have hlex : lex hapless = [⟨.number, ⟨0, 1⟩⟩, ⟨.number, ⟨2, 3⟩⟩, ⟨.ident, ⟨4, 6⟩⟩,
      ⟨.lparen, ⟨6, 7⟩⟩, ⟨.ident, ⟨7, 8⟩⟩, ⟨.comma, ⟨8, 9⟩⟩, ⟨.ident, ⟨10, 13⟩⟩,
      ⟨.lparen, ⟨13, 14⟩⟩, ⟨.ident, ⟨14, 15⟩⟩, ⟨.rparen, ⟨15, 16⟩⟩, ⟨.comma, ⟨16, 17⟩⟩,
      ⟨.ident, ⟨18, 21⟩⟩, ⟨.lparen, ⟨21, 22⟩⟩, ⟨.rparen, ⟨22, 23⟩⟩, ⟨.rparen, ⟨23, 24⟩⟩,
      .endAt 24] := by decide +kernel
  rw [check, parse_eq_drive, hlex]
  rfl

theorem failures_are_located_hapless :
    (Interpreter.check hapless).value = .ok haplessProblems ∧
      ∀ f ∈ haplessProblems, Located hapless f ∧ f.span.Shown hapless := by
  have hcheck : (Interpreter.check hapless).value = .ok haplessProblems :=
    (Interpreter.value_check hapless).trans check_hapless
  rcases failures_are_located hapless with ⟨-, -, -, -, hproblems, hshown, -⟩
  refine ⟨hcheck, fun f hf => ?_⟩
  have hlocated := hproblems haplessProblems hcheck f hf
  exact ⟨hlocated, hshown f hlocated⟩

end BitLogic
