import BitLogic.Command.Run
import BitLogic.Proofs.Alphabet
import BitLogic.Proofs.Blanks
import BitLogic.Proofs.Located

/-!
# Front Ends Agree

The commands do not treat a source alike. Evaluating it cuts off the line ends behind it,
the prompt cuts off all blanks at both of its ends, and checking and compiling take it as it
is. It makes no difference to whether they succeed.

Line ends are blanks to the lexer, so cutting them off only moves the end. The blanks of the
prompt are those of Unicode, and there are more of these than the lexer skips. But a source
with a value has only tokens that were expected, hence it is written in a small part of ASCII
(`not_stray_of_parse`), and in that part the two sorts of blanks are the same.

The three back ends stop at the same fault or at none (`back_ends_agree`). What a command
does before it comes to its source depends on the arguments behind its name and not on the
name, and `Call.fails` says once for all of them whether the call fails.

## Main definitions

* `Command.IsOrdinary`: A word that is neither a command nor an option.
* `Call.under`: A call with the name of a command before its arguments.
* `Call.Bare`: A call that names no command and starts no prompt.
* `Call.Names`: A bare call in which the arguments name a source.
* `Call.fails`: Whether a command on a source fails, whichever it is.
* `Call.backEnds`: The commands that evaluate, check and compile.

## Theorems

* `Alike.ok_of_ok`, `Alike.isOk_eq`: Outcomes that are alike succeed together.
* `Console.trimLineEnds_append`: What is cut off behind a source.
* `evaluate_trimLineEnds`, `evaluate_trimBlanks`: The value of what is left of a source.
* `blankWidth_ascii`, `trimBlanks_ascii`: Blanks at the ends of a text in ASCII.
* `isSpace_of_isBlank`: In a source all blanks are skipped by the lexer.
* `back_ends_agree`: What evaluating, checking and compiling make of a source.
* `Console.failed_present`: Whether showing an outcome fails.
* `Console.failed_evaluate`, `Console.failed_check`, `Console.failed_ir`: Whether a
  command fails on a source.
* `Command.find_name`: The name of a command is found.
* `Command.IsOrdinary.exists_cons`, `Command.IsOrdinary.find_single`,
  `Command.IsOrdinary.read_single`: An ordinary word is no command and no option.
* `Call.failed_onSource`, `Call.completed?_of_hasSource`, `Call.hasSource_of_mem`: The
  commands on a source.
* `Call.failed_run`: Whether a call fails.
* `Call.Bare.failed_run`, `Call.failed_run_under`: The same without the name of a
  command and with it.
* `Call.Names.fails_eq`: Whether a call fails that names a source.
* `Call.names_text`, `Call.names_file`: The usual ways to name a source.
* `front_ends_agree`: All commands succeed on the same sources.
* `evaluate_unclosed`, `front_ends_agree_unclosed`: A call that is not closed.
-/

namespace BitLogic

/-! ## Cut-off line ends -/

theorem Alike.ok_of_ok {S : Span → Span → Prop} {α : Type} {x y : Except Stop α}
    (h : Alike S Eq x y) (a : α) (hx : x = .ok a) : y = .ok a := by
  cases h with
  | ok b b' hb => rw [← hb, hx]
  | fault f g hfg => simp only [reduceCtorEq] at hx

/-- Outcomes that are alike succeed both or fail both. -/
theorem Alike.isOk_eq {S : Span → Span → Prop} {α : Type} {x y : Except Stop α}
    (h : Alike S Eq x y) : x.isOk = y.isOk := by
  cases h <;> rfl

/-- What is cut off behind a source are blanks of the lexer. -/
theorem Console.trimLineEnds_append (src : Text) :
    ∃ gap, src = trimLineEnds src ++ gap ∧ gap.all Lexer.isSpace = true := by
  refine ⟨_, (Text.dropRightWhile_append _ src).symm, List.all_eq_true.mpr fun b hb => ?_⟩
  -- A line feed and a carriage return are both skipped by the lexer.
  have hend := List.mem_takeWhile_imp (List.mem_reverse.mp hb)
  rw [Bool.or_eq_true, decide_eq_true_eq, decide_eq_true_eq] at hend
  rcases hend with rfl | rfl <;> decide

/-- Without the line ends behind it a source has the same value or fails for the same
    reason and at the same place, unless that is its end. -/
theorem evaluate_trimLineEnds (src : Text) :
    Alike (Span.EndMoved src.length (Console.trimLineEnds src).length) Eq (evaluate src)
      (evaluate (Console.trimLineEnds src)) := by
  rcases Console.trimLineEnds_append src with ⟨gap, hsrc, hgap⟩
  have hlike := evaluate_trailing (Console.trimLineEnds src) gap hgap
  rw [← hsrc] at hlike
  exact hlike

/-! ## Cut-off blanks -/

/-- In ASCII blanks are counted byte by byte. -/
theorem blankWidth_ascii (t : Text) :
    blankWidth (t.map fun b => ⟨b.toNat, 1⟩) = (t.takeWhile fun b => isBlank b.toNat).length := by
  induction t with
  | nil => rfl
  | cons b t ih =>
      rw [blankWidth] at ih ⊢
      rw [List.map_cons, List.takeWhile_cons, List.takeWhile_cons]
      by_cases hb : isBlank b.toNat = true
      · rw [if_pos hb, if_pos hb, List.foldr_cons, ih, List.length_cons, Nat.add_comm]
      · rw [if_neg hb, if_neg hb]
        rfl

/-- In ASCII what is cut off are the bytes that are blanks. -/
theorem trimBlanks_ascii (t : Text) (h : ∀ b ∈ t, b.toNat < 128) :
    ∃ gap gap', t = gap ++ (trimBlanks t ++ gap') ∧
      ∀ b ∈ gap ++ gap', isBlank b.toNat = true := by
  let blank := fun b : UInt8 => isBlank b.toNat
  -- Every byte is a character of its own, so blanks in front are a run of bytes.
  have hfront : t.drop (blankWidth (Utf8.codePoints t)) = t.dropWhile blank := by
    rw [Utf8.codePoints_ascii t h, blankWidth_ascii]
    exact List.drop_length_takeWhile blank t
  -- Blanks at the end are counted in what is left behind those at the front.
  have hrest : ∀ b ∈ t.dropWhile blank, b.toNat < 128 :=
    fun b hb => h b ((List.dropWhile_sublist blank).mem hb)
  have htrim : trimBlanks t = Text.dropRightWhile blank (t.dropWhile blank) := by
    rw [trimBlanks, hfront, Utf8.codePoints_ascii _ hrest, ← List.map_reverse, blankWidth_ascii]
    exact Text.take_eq_dropRightWhile blank _
  refine ⟨t.takeWhile blank, ((t.dropWhile blank).reverse.takeWhile blank).reverse, ?_, ?_⟩
  · rw [htrim, Text.dropRightWhile_append, List.takeWhile_append_dropWhile]
  · rw [List.forall_mem_append]
    exact ⟨fun b hb => List.mem_takeWhile_imp (p := blank) hb,
      fun b hb => List.mem_takeWhile_imp (p := blank) (List.mem_reverse.mp hb)⟩

/-- A blank of Unicode that is not stray is one of the lexer. Only the vertical tab would
    not be, and it is stray. -/
theorem isSpace_of_isBlank (b : UInt8) (h : ¬ Stray b) (hblank : isBlank b.toNat = true) :
    Lexer.isSpace b = true := by
  have hb := toNat_of_not_stray b h
  -- Both classes are lists of codes, which are compared below 128.
  simp only [isBlank, Bool.or_eq_true, Bool.and_eq_true, decide_eq_true_eq, beq_iff_eq] at hblank
  simp only [Lexer.isSpace, Bool.or_eq_true, beq_iff_eq, ← UInt8.toNat_inj, UInt8.reduceToNat]
  omega

/-- A source that has a value still has it without the blanks at its ends. -/
theorem evaluate_trimBlanks (src : Text) (b : Bool) (h : evaluate src = .ok b) :
    evaluate (trimBlanks src) = .ok b := by
  have heval := h
  rw [evaluate, Except.bind_eq_ok_iff] at heval
  rcases heval with ⟨p, hparse, -⟩
  have hstray := not_stray_of_parse src p hparse
  rcases trimBlanks_ascii src fun b hb => (toNat_of_not_stray b (hstray b hb)).1 with
    ⟨gap, gap', hsrc, hblank⟩
  -- The blanks that are cut off belong to the source, so the lexer skips them too.
  have hspace : ∀ b ∈ gap ++ gap', Lexer.isSpace b = true := by
    intro b hb
    refine isSpace_of_isBlank b (hstray b ?_) (hblank b hb)
    rw [hsrc, List.mem_append, List.mem_append]
    rcases List.mem_append.mp hb with hb | hb
    · exact Or.inl hb
    · exact Or.inr (Or.inr hb)
  rw [List.forall_mem_append] at hspace
  have hfront := evaluate_leading gap (trimBlanks src ++ gap') (List.all_eq_true.mpr hspace.1)
  have hback := evaluate_trailing (trimBlanks src) gap' (List.all_eq_true.mpr hspace.2)
  rw [← hsrc] at hfront
  exact hback.ok_of_ok b (hfront.ok_of_ok b h)

/-! ## Back ends -/

/-- What evaluating, checking and compiling make of a source: a value, no problem and a
    text, or the same fault. -/
theorem back_ends_agree (src : Text) :
    (∃ b t, evaluate src = .ok b ∧ check src = .ok [] ∧ compile src = .ok t) ∨
      ∃ f, evaluate src = .error (.fault f) ∧ compile src = .error (.fault f) ∧
        (check src = .error (.fault f) ∨ ∃ fs, check src = .ok (f :: fs)) := by
  cases hparse : parse src with
  | error stop =>
      rcases located_of_parse src stop hparse with ⟨f, rfl, -⟩
      rw [evaluate, compile, check, hparse]
      exact Or.inr ⟨f, rfl, rfl, Or.inl rfl⟩
  | ok p =>
      have hargs := length_args_of_parse src p hparse
      have hsolid := solid_of_parse src p hparse
      rcases p.check_eq _ (Env.ofArgs_eq p.args hargs) with ⟨problems, hcheck, -⟩
      have hsrc : evaluate src = p.eval ∧ compile src = p.compile ∧ check src = .ok problems := by
        rw [evaluate, compile, check, hparse]
        refine ⟨rfl, rfl, ?_⟩
        simp only [bind, Except.bind, hcheck]
      rw [hsrc.1, hsrc.2.1, hsrc.2.2]
      -- Compiling follows evaluation, and evaluation follows the check.
      rcases p.compile_with_eval hargs with ⟨t, b, ht, hb⟩ | ⟨stop, hcompile, heval⟩
      · have hnil := (p.eval_ok_iff_nil hargs hsolid problems hcheck).mpr ⟨b, hb⟩
        exact Or.inl ⟨b, t, hb, by rw [hnil], ht⟩
      · -- Evaluation stops at the first problem.
        have hhead := (p.eval_error_iff_head? hargs hsolid problems hcheck stop).mp heval
        rcases Option.map_eq_some_iff.mp hhead with ⟨f, hf, rfl⟩
        rcases List.head?_eq_some_iff.mp hf with ⟨fs, hfs⟩
        exact Or.inr ⟨f, heval, hcompile, Or.inr ⟨fs, by rw [hfs]⟩⟩

namespace Console

/-- Showing an outcome fails if there is no value, or if what is shown of the value says so.
    -/
theorem failed_present {α : Type} (c : Console) (src : Text) (l : Log.Logged (Except Stop α))
    (success : α → Output) : (c.present src l success).failed =
      match l.value with
      | .ok a => (success a).failed
      | .error _ => true := by
  rw [present]
  cases l.value with
  | ok a => rfl
  | error stop => cases stop <;> rfl

/-- Evaluating fails on the sources that have no value. -/
theorem failed_evaluate (c : Console) (src : Text) :
    (c.evaluate src).failed = !(BitLogic.evaluate src).isOk := by
  -- What is evaluated is the rest of the source, and its value is that of the source.
  have hpresent := c.failed_present (trimLineEnds src) (Interpreter.run (trimLineEnds src))
    fun b => .ofResult (Text.ofBool b ++ [Text.lineFeed])
  rw [Interpreter.value_run] at hpresent
  rw [(evaluate_trimLineEnds src).isOk_eq]
  refine hpresent.trans ?_
  cases BitLogic.evaluate (trimLineEnds src) <;> rfl

theorem failed_check (c : Console) (src : Text) :
    (c.check src).failed = !(BitLogic.evaluate src).isOk := by
  rw [check, failed_present, Interpreter.value_check]
  rcases back_ends_agree src with ⟨b, t, heval, hcheck, -⟩ | ⟨f, heval, -, hcheck | ⟨fs, hcheck⟩⟩
  · rw [heval, hcheck]
    rfl
  · rw [heval, hcheck]
    rfl
  · rw [heval, hcheck]
    rfl

theorem failed_ir (c : Console) (src : Text) :
    (c.ir src).failed = !(BitLogic.evaluate src).isOk := by
  rw [ir, failed_present, Interpreter.value_compile]
  rcases back_ends_agree src with ⟨b, t, heval, -, hcompile⟩ | ⟨f, heval, hcompile, -⟩
  · rw [heval, hcompile]
    rfl
  · rw [heval, hcompile]
    rfl

end Console

/-! ## Commands -/

namespace Command

/-- The name of a command comes off the front of the arguments. -/
theorem find_name (word : Text) (c : Command) (h : (word, c) ∈ names) (rest : List Text) :
    find (word :: rest) = (c, rest) := by
  -- The names are few enough to look at each of them: none is an option, and each is found first.
  have hnames : ∀ e ∈ names, e.1 ≠ [45, 45] ∧ takesNext e.1 = false ∧
      (e.1.isEmpty || e.1.head? = some dash) = false ∧ names.lookup e.1 = some e.2 := by
    decide +kernel
  obtain ⟨hdashes, hnext, hword, hlookup⟩ : word ≠ [45, 45] ∧ takesNext word = false ∧
      (word.isEmpty || word.head? = some dash) = false ∧ names.lookup word = some c :=
    hnames (word, c) h
  have hfirst : firstWord? (word :: rest) = some word := by
    unfold firstWord?
    rw [if_neg hdashes, if_neg (by rw [hnext]; decide), if_neg (by rw [hword]; decide)]
  have hwithout : withoutWord word (word :: rest) = rest := by
    unfold withoutWord
    rw [if_neg hdashes, if_neg (by rw [hnext]; decide), if_pos rfl]
  simp only [find, hfirst, hlookup, hwithout]

/-- The word is neither the name of a command nor an option. -/
structure IsOrdinary (word : Text) : Prop where
  ne_nil : word ≠ []
  noDash : word.head? ≠ some dash
  noName : names.lookup word = none

theorem IsOrdinary.exists_cons {word : Text} (h : IsOrdinary word) :
    ∃ b s, word = b :: s ∧ b ≠ 45 := by
  cases word with
  | nil => exact absurd rfl h.ne_nil
  | cons b s => exact ⟨b, s, rfl, fun hb => h.noDash (by rw [hb]; rfl)⟩

/-- An ordinary word alone is not taken for a command. -/
theorem IsOrdinary.find_single {word : Text} (h : IsOrdinary word) :
    find [word] = (.run, [word]) := by
  rcases h.exists_cons with ⟨b, s, rfl, hb⟩
  -- A word that is no option takes no value from the word behind it.
  have hnext : takesNext (b :: s) = false := by
    rw [takesNext]
    · exact Bool.and_false _
    · exact fun _ hs => hb (List.cons.inj hs).1
    · exact fun _ hs => hb (List.cons.inj hs).1
  have hfirst : firstWord? [b :: s] = some (b :: s) := by
    unfold firstWord?
    rw [if_neg fun hs => hb (List.cons.inj hs).1, if_neg (by rw [hnext]; decide),
      if_neg (by simpa [dash] using hb)]
  simp only [find, hfirst, h.noName]

theorem IsOrdinary.read_single {word : Text} (h : IsOrdinary word) :
    Options.read [word] = .ok ({}, [word]) := by
  rcases h.exists_cons with ⟨b, s, rfl, hb⟩
  -- None of the forms of an option applies, since these begin with a dash.
  rw [Options.read, List.length_singleton, Options.readLoop]
  · rfl
  · exact fun hs => hb (List.cons.inj hs).1
  · exact fun _ hs => hb (List.cons.inj hs).1
  · exact fun _ _ hs => hb (List.cons.inj hs).1

end Command

namespace Call

/-- The call with a word before its arguments. -/
def under (call : Call) (word : String) : Call :=
  { call with args := Text.ofString word :: call.args }

/-- The arguments name no command and start no prompt. -/
structure Bare (call : Call) : Prop where
  find : Command.find call.args = (.run, call.args)
  noPrompt : ∀ o positional, Options.read call.args = .ok (o, positional) →
    startsPrompt .run o positional = false

/-- The arguments name no command but a source, and nothing stands in the way of it. -/
structure Names (call : Call) (src : Text) : Prop extends Bare call where
  read : ∃ o positional s, Options.read call.args = .ok (o, positional) ∧ o.help = false ∧
    positional.length ≤ 1 ∧ call.settings o = .ok s ∧ call.source o positional = .ok src

/-- A command that works on a source fails, the arguments behind its name being given: the
    options, the number of arguments, the settings or the source may be at fault, or the
    source has no value. -/
def fails (call : Call) (args : List Text) : Bool :=
  match Options.read args with
  | .error _ => true
  | .ok (o, positional) =>
    if o.help then false
    else if 1 < positional.length then true
    else match call.settings o, call.source o positional with
      | .error _, _ => true
      | .ok _, .error _ => true
      | .ok _, .ok src => !(evaluate src).isOk

/-- The commands that agree with each other. -/
def backEnds : List Command := [.run, .check, .ir]

/-- On a source that has been read, each of the commands fails if it has no value. -/
theorem failed_onSource (c : Command) (hc : c ∈ backEnds) (console : Console) (src : Text) :
    (onSource c console src).failed = !(evaluate src).isOk := by
  simp only [backEnds, List.mem_cons, List.not_mem_nil, or_false] at hc
  rcases hc with rfl | rfl | rfl
  · exact console.failed_evaluate src
  · exact console.failed_check src
  · exact console.failed_ir src

/-- A command on a source is not meant for shells. -/
theorem completed?_of_hasSource (call : Call) (c : Command) (args : List Text)
    (h : c.hasSource = true) : call.completed? c args = none := by
  cases c with
  | run | tokens | tree | check | ir => rfl
  | help | completion | request _ => exact absurd h Bool.false_ne_true

theorem hasSource_of_mem (c : Command) (h : c ∈ backEnds) : c.hasSource = true := by
  have hall : ∀ c ∈ backEnds, c.hasSource = true := by decide
  exact hall c h

/-- Whether a call fails does not depend on which of the commands it names. -/
theorem failed_run (call : Call) (c : Command) (args : List Text) (hc : c ∈ backEnds)
    (hfind : Command.find call.args = (c, args))
    (hprompt : ∀ o positional, Options.read args = .ok (o, positional) →
      startsPrompt c o positional = false) :
    call.run.1.failed = call.fails args := by
  have hsource := hasSource_of_mem c hc
  have hother : c ≠ .help ∧ c ≠ .completion := by
    constructor <;>
    · rintro rfl
      exact absurd hsource Bool.false_ne_true
  -- The call goes through the same tests in the same order, up to the source.
  rw [run, hfind, fails]
  simp only [completed?_of_hasSource call c args hsource]
  cases hread : Options.read args with
  | error f => rfl
  | ok r =>
      rcases r with ⟨o, positional⟩
      simp only
      rw [decide_eq_false hother.2, Bool.or_false]
      by_cases ho : o.help = true
      · rw [if_pos ho, if_pos ho]
        rfl
      rw [if_neg ho, if_neg ho, argumentError?]
      by_cases hmany : 1 < positional.length
      · rw [if_pos (by simp [hsource, hmany]), if_pos hmany]
        rfl
      rw [if_neg (by simp [hmany]), if_neg hmany]
      cases call.settings o with
      | error f => rfl
      | ok s =>
          simp only
          rw [perform, if_neg hother.1, if_neg (by rw [hprompt o positional hread]; decide)]
          cases call.source o positional with
          | error f => rfl
          | ok src => exact failed_onSource c hc _ src

theorem Bare.failed_run {call : Call} (h : call.Bare) :
    call.run.1.failed = call.fails call.args :=
  Call.failed_run call .run call.args (by decide) h.find h.noPrompt

/-- A call with the name of a command in front fails like the arguments behind the name. -/
theorem failed_run_under (call : Call) (word : String) (c : Command)
    (hname : (Text.ofString word, c) ∈ Command.names) (hc : c ∈ backEnds) :
    (call.under word).run.1.failed = call.fails call.args := by
  refine failed_run (call.under word) c call.args hc (Command.find_name _ c hname call.args) ?_
  intro o positional _
  have hnames : ∀ e ∈ Command.names, e.2 ≠ .run := by decide
  -- A prompt is started without the name of a command only.
  have hrun : c ≠ .run := hnames _ hname
  rw [startsPrompt, decide_eq_false hrun, Bool.false_and, Bool.false_and]

/-- If nothing stands in the way of the source, it depends on the source alone. -/
theorem Names.fails_eq {call : Call} {src : Text} (h : call.Names src) :
    call.fails call.args = !(evaluate src).isOk := by
  rcases h.read with ⟨o, positional, s, hread, hhelp, hone, hsettings, hsource⟩
  rw [fails, hread]
  simp only
  rw [if_neg (by rw [hhelp]; decide), if_neg (by omega), hsettings, hsource]

/-- A text among the options is the source, unless it is empty. -/
theorem names_text (call : Call) (text : Text) (hne : text ≠ [])
    (hargs : call.args = [Text.ofString "-e", text]) : call.Names text := by
  -- An option that may take a value is not taken for a command, nor is its value.
  have hread : Options.read call.args = .ok ({ expr := text }, []) := by
    rw [hargs]
    rfl
  refine ⟨⟨?_, ?_⟩, { expr := text }, [], _, hread, rfl, Nat.zero_le 1, rfl, rfl⟩
  · rw [hargs]
    rfl
  · intro o positional hread'
    rw [hread, Except.ok.injEq, Prod.mk.injEq] at hread'
    rw [← hread'.1, ← hread'.2, startsPrompt, List.isEmpty_eq_false_iff.mpr hne, Bool.and_false]

/-- A single word is a path to the source. -/
theorem names_file (call : Call) (path src : Text) (hpath : Command.IsOrdinary path)
    (hargs : call.args = [path]) (hsrc : call.files.read path = .ok src) : call.Names src := by
  have hread : Options.read call.args = .ok ({}, [path]) := by
    rw [hargs]
    exact hpath.read_single
  refine ⟨⟨?_, ?_⟩, {}, [path], _, hread, rfl, Nat.le_refl 1, rfl, ?_⟩
  · rw [hargs]
    exact hpath.find_single
  · intro o positional hread'
    rw [hread, Except.ok.injEq, Prod.mk.injEq] at hread'
    rw [← hread'.2]
    rfl
  · have hinput : path ≠ [dash] := by
      rintro rfl
      exact hpath.noDash rfl
    rw [source]
    simp only
    rw [if_neg (by decide), if_neg hinput]
    exact hsrc

end Call

/-- The front ends agree on every source. Cutting off the line ends behind it leaves its value
    and its fault, up to the place of its end. Cutting off all blanks leaves its value.
    Evaluating, checking and compiling succeed under the same arguments and on the same
    sources, and a source can be named by a text among the options or by a file. -/
theorem front_ends_agree :
    (∀ src, Alike (Span.EndMoved src.length (Console.trimLineEnds src).length) Eq
      (Interpreter.run src).value (Interpreter.run (Console.trimLineEnds src)).value) ∧
    (∀ src b, (Interpreter.run src).value = .ok b →
      (Interpreter.run (trimBlanks src)).value = .ok b) ∧
    (∀ call : Call, call.Bare →
      (call.under "check").run.1.failed = call.run.1.failed ∧
      (call.under "ir").run.1.failed = call.run.1.failed) ∧
    (∀ (call : Call) src, call.Names src →
      (call.run.1.failed = false ∧ ∃ b t, (Interpreter.run src).value = .ok b ∧
        (Interpreter.check src).value = .ok [] ∧ (Interpreter.compile src).value = .ok t) ∨
      (call.run.1.failed = true ∧ ∃ f, (Interpreter.run src).value = .error (.fault f) ∧
        (Interpreter.compile src).value = .error (.fault f) ∧
        ((Interpreter.check src).value = .error (.fault f) ∨
          ∃ fs, (Interpreter.check src).value = .ok (f :: fs)))) ∧
    (∀ (call : Call) src, src ≠ [] → call.args = [Text.ofString "-e", src] → call.Names src) ∧
    ∀ (call : Call) path src, Command.IsOrdinary path → call.args = [path] →
      call.files.read path = .ok src → call.Names src := by
  refine ⟨?_, ?_, ?_, ?_, Call.names_text, Call.names_file⟩
  · intro src
    rw [Interpreter.value_run, Interpreter.value_run]
    exact evaluate_trimLineEnds src
  · intro src b h
    rw [Interpreter.value_run] at h ⊢
    exact evaluate_trimBlanks src b h
  · intro call hbare
    rw [hbare.failed_run]
    exact ⟨call.failed_run_under "check" .check (by decide +kernel) (by decide),
      call.failed_run_under "ir" .ir (by decide +kernel) (by decide)⟩
  · intro call src hnames
    rw [hnames.toBare.failed_run, hnames.fails_eq, Interpreter.value_run, Interpreter.value_check,
      Interpreter.value_compile]
    rcases back_ends_agree src with ⟨b, t, heval, hrest⟩ | ⟨f, heval, hrest⟩
    · rw [heval]
      exact Or.inl ⟨rfl, b, t, rfl, hrest⟩
    · rw [heval]
      exact Or.inr ⟨rfl, f, rfl, hrest⟩

/-- A call that is not closed before the end of the line. -/
def unclosed : Text := Text.ofString "1 0 not(A\r\n"

/-- The source among the options. -/
def unclosedCall : Call :=
  { args := [Text.ofString "-e", unclosed], input := [], files := [], profile := .plain }

theorem evaluate_unclosed :
    evaluate unclosed = .error (.fault ⟨.tokenAmong [.comma, .rparen] .eof, ⟨11, 11⟩⟩) := by
  have hlex : lex unclosed = [⟨.number, ⟨0, 1⟩⟩, ⟨.number, ⟨2, 3⟩⟩, ⟨.ident, ⟨4, 7⟩⟩,
      ⟨.lparen, ⟨7, 8⟩⟩, ⟨.ident, ⟨8, 9⟩⟩, .endAt 11] := by decide +kernel
  rw [evaluate, parse_eq_drive, hlex]
  rfl

theorem front_ends_agree_unclosed : unclosedCall.Names unclosed ∧
    unclosedCall.run.1.failed = true ∧ (unclosedCall.under "check").run.1.failed = true ∧
    (unclosedCall.under "ir").run.1.failed = true ∧
    ∃ f, (Interpreter.run (Console.trimLineEnds unclosed)).value = .error (.fault f) ∧
      f.span = ⟨9, 9⟩ := by
  rcases front_ends_agree with ⟨htrim, -, hbare, hsource, htext, -⟩
  have hnames := htext unclosedCall unclosed (by decide +kernel) rfl
  have heval := (Interpreter.value_run unclosed).trans evaluate_unclosed
  have hfailed : unclosedCall.run.1.failed = true := by
    rcases hsource _ _ hnames with ⟨-, b, t, hb, -⟩ | ⟨hfailed, -⟩
    · rw [heval] at hb
      simp only [reduceCtorEq] at hb
    · exact hfailed
  have hsame := hbare unclosedCall hnames.toBare
  rw [hfailed] at hsame
  refine ⟨hnames, hfailed, hsame.1, hsame.2, ?_⟩
  have hlike := htrim unclosed
  have hlength : unclosed.length = 11 ∧ (Console.trimLineEnds unclosed).length = 9 := by
    decide +kernel
  rw [heval, hlength.1, hlength.2] at hlike
  generalize (Interpreter.run (Console.trimLineEnds unclosed)).value = trimmed at hlike
  cases hlike with
  | fault f g hfg =>
      exact ⟨g, rfl, hfg.2⟩

end BitLogic
