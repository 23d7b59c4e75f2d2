import BitLogic.Proofs.Blocks
import BitLogic.Proofs.Grammar
import BitLogic.Proofs.Lines
import BitLogic.Proofs.Meaning

/-!
# Assembly Line by Line

The text of a compiled source, described as lines and without the module that it was
printed from.

There are two functions of one block each. The first declares one parameter for each bit,
named by the letters in order. The lines of its block number their results from zero, and
what a line works on is a truth value, a declared parameter, or the number of an earlier
line. The block ends with the only `ret`. The second function calls the first with the bits
of the program. That the text can be read in this way needs two things. The block has to be
in order, which was shown of the instructions, and no line may be broken up, so everything
that is printed within a line must be free of line feeds (`Unbroken`).

## Main definitions

* `IR.ValueText`: A value that may stand in the line of a given number.
* `IR.InstrLine`: The line of a given number.
* `IR.evalHead`, `IR.mainLines`: The lines that do not depend on the expression.

## Theorems

* `IR.unbroken_letter`, `IR.unbroken_ofBool`: Names and truth values hold no line feed.
* `IR.ValueText.unbroken`, `IR.InstrLine.unbroken`: Neither do values and lines of a
  block.
* `IR.unbroken_evalHead`, `IR.unbroken_mainLines`: Neither do the lines around it.
* `IR.escapeName_letter`, `IR.text_param_letter`: A letter is printed as it is.
* `IR.valueText_of_usable`: A usable operand is printed as a value.
* `IR.blockLine_eq`: A line of a block is a line.
* `IR.instrLines_eq`: The lines of instructions in order.
* `IR.typed_varNames`: The parameters as they are declared.
* `IR.text_eval`, `IR.text_main`: The lines of the two functions.
* `IR.moduleText_pair`: Two functions with an empty line between them.
* `compile_is_single_assignment`: The text of a source that is compiled.
* `compile_is_single_assignment_brief`: A source with calls that take no instruction.
-/

namespace BitLogic

open Text (Unbroken)

namespace IR

/-- A value that may stand in the line of number `k`, in a function with `n` parameters: a
    truth value, a declared parameter, or the result of an earlier line. -/
inductive ValueText (n k : Nat) : Text → Prop
  | const (b : Bool) : ValueText n k (Text.ofBool b)
  | param (i : Nat) (h : i < n) : ValueText n k (Text.ofString "%" ++ letter i)
  | result (m : Nat) (h : m < k) : ValueText n k (Text.ofString "%" ++ Text.ofNat m)

/-- The line of number `k`: an operation on two values, its result known by that number. -/
inductive InstrLine (n k : Nat) : Text → Prop
  | mk (op : Op) (x y : Text) (hx : ValueText n k x) (hy : ValueText n k y) :
      InstrLine n k (Text.ofString "\t%" ++ Text.ofNat k ++ Text.ofString " = " ++ op.text ++
        Text.ofString " i1 " ++ x ++ Text.ofString ", " ++ y)

/-- The first line of the function that computes the expression, with one parameter for
    each of the first `n` letters. -/
def evalHead (n : Nat) : Text :=
  Text.ofString "define i1 @eval(" ++
    Text.joinWith (Text.ofString ", ")
      ((List.range n).map fun i => Text.ofString "i1 %" ++ letter i) ++ Text.ofString ") \x7b"

/-- The lines of the function that calls the other one with the bits of the program. -/
def mainLines (bits : List Bool) : List Text :=
  [Text.ofString "define i32 @main() \x7b",
    Text.ofString "entry:",
    Text.ofString "\t%0 = call i1 @eval(" ++
      Text.joinWith (Text.ofString ", ")
        (bits.map fun b => Text.ofString "i1 " ++ Text.ofBool b) ++ Text.ofString ")",
    Text.ofString "\t%1 = zext i1 %0 to i32",
    Text.ofString "\tret i32 %1",
    Text.ofString "\x7d"]

/-! ## Lines are not broken up -/

/-- A letter is no line feed, as its code is 65 or more. -/
theorem unbroken_letter (i : Nat) (h : i < maxArgs) : Unbroken (letter i) := by
  have hi : i < 26 := h
  intro hmem
  have hbyte := congrArg UInt8.toNat (List.mem_singleton.mp hmem)
  rw [UInt8.toNat_ofNat'] at hbyte
  have hfeed : Text.lineFeed.toNat = 10 := rfl
  omega

@[simp]
theorem unbroken_ofBool (b : Bool) : Unbroken (Text.ofBool b) := by
  cases b <;> decide

theorem ValueText.unbroken {n k : Nat} {t : Text} (h : ValueText n k t) (hn : n ≤ maxArgs) :
    Unbroken t := by
  cases h with
  | const b => exact unbroken_ofBool b
  | param i hi =>
      have hletter := unbroken_letter i (by omega)
      simp +decide [hletter]
  | result m hm => simp +decide

theorem InstrLine.unbroken {n k : Nat} {t : Text} (h : InstrLine n k t) (hn : n ≤ maxArgs) :
    Unbroken t := by
  cases h with
  | mk op x y hx hy =>
      have hop : Unbroken op.text := by cases op <;> decide
      have hx := hx.unbroken hn
      have hy := hy.unbroken hn
      simp +decide [hop, hx, hy]

theorem unbroken_evalHead (n : Nat) (hn : n ≤ maxArgs) : Unbroken (evalHead n) := by
  have hparams : Unbroken (Text.joinWith (Text.ofString ", ")
      ((List.range n).map fun i => Text.ofString "i1 %" ++ letter i)) := by
    refine Text.unbroken_joinWith _ (by decide) _ fun t ht => ?_
    rcases List.mem_map.mp ht with ⟨i, hi, rfl⟩
    rw [List.mem_range] at hi
    have hletter := unbroken_letter i (by omega)
    simp +decide [hletter]
  simp +decide [evalHead, hparams]

theorem unbroken_mainLines (bits : List Bool) : ∀ l ∈ mainLines bits, Unbroken l := by
  have hbits : Unbroken (Text.joinWith (Text.ofString ", ")
      (bits.map fun b => Text.ofString "i1 " ++ Text.ofBool b)) := by
    refine Text.unbroken_joinWith _ (by decide) _ fun t ht => ?_
    rcases List.mem_map.mp ht with ⟨b, -, rfl⟩
    simp +decide
  simp +decide [mainLines, hbits]

/-! ## What is printed -/

/-- A letter needs no quotation marks. -/
theorem escapeName_letter (i : Nat) (h : i < maxArgs) : escapeName (letter i) = letter i := by
  have hplain : ∀ i < maxArgs, (letter i).all isPlainNameByte = true := by decide
  rw [escapeName, if_pos (hplain i h)]

theorem text_param_letter (i : Nat) (h : i < maxArgs) :
    (Operand.param (letter i)).text = Text.ofString "%" ++ letter i := by
  rw [Operand.text, escapeName_letter i h]

/-- An operand that can be used at a position is printed as a value that may stand there. -/
theorem valueText_of_usable (n k : Nat) (hn : n ≤ maxArgs) (x : Operand)
    (h : x.Usable (varNames n) k) : ValueText n k x.text := by
  cases x with
  | const b => exact .const b
  | result i => exact .result i h
  | param name =>
      rcases List.getElem?_of_mem h with ⟨i, hi⟩
      rcases (getElem?_varNames n i name hn).mp hi with ⟨hlt, rfl⟩
      rw [text_param_letter i (by omega)]
      exact .param i hlt

/-- What is printed as a line of a block is one line with a tab in front. -/
theorem blockLine_eq (t : Text) : blockLine t = Text.ofLines [Text.ofString "\t" ++ t] := by
  rw [blockLine, Text.ofLines, List.flatMap_singleton]
  rfl

/-- The lines of a block in order are the lines of their numbers, the first of them at a
    given position. -/
theorem instrLines_eq (n : Nat) (hn : n ≤ maxArgs) (is : List Instr) : ∀ start : Nat,
    (∀ (k : Nat) (i : Instr), is[k]? = some i → i.lhs.Usable (varNames n) (start + k) ∧
      i.rhs.Usable (varNames n) (start + k)) →
    ∃ ls, instrLines start is = Text.ofLines ls ∧ ls.length = is.length ∧
      ∀ k l, ls[k]? = some l → InstrLine n (start + k) l := by
  -- Along the instructions, from any number on: those behind the first are numbered one further.
  induction is with
  | nil =>
      intro start _
      refine ⟨[], rfl, rfl, fun k l hl => ?_⟩
      simp only [List.getElem?_nil, reduceCtorEq] at hl
  | cons i is ih =>
      intro start h
      have hfirst := h 0 i rfl
      rcases ih (start + 1) (fun k j hj => by
        have hlater := h (k + 1) j hj
        rw [Nat.add_assoc, Nat.add_comm 1 k]
        exact hlater) with ⟨ls, htext, hlen, hls⟩
      refine ⟨(Text.ofString "\t" ++ i.text start) :: ls, ?_, ?_, ?_⟩
      · rw [instrLines, htext, blockLine_eq, ← Text.ofLines_append, List.singleton_append]
      · rw [List.length_cons, List.length_cons, hlen]
      · intro k l hl
        cases k with
        -- The line of the first instruction has the number that the lines start from.
        | zero =>
            rw [List.getElem?_cons_zero, Option.some.injEq] at hl
            have hline := InstrLine.mk (n := n) (k := start) i.op i.lhs.text i.rhs.text
              (valueText_of_usable n start hn _ hfirst.1)
              (valueText_of_usable n start hn _ hfirst.2)
            rw [← hl, Nat.add_zero]
            exact hline
        | succ k =>
            rw [List.getElem?_cons_succ] at hl
            have hline := hls k l hl
            rw [Nat.add_assoc, Nat.add_comm 1 k] at hline
            exact hline

/-- The names of the parameters with their types, as the first line declares them. -/
theorem typed_varNames (n : Nat) (hn : n ≤ maxArgs) :
    ((varNames n).map fun p => (Operand.param p).typed) =
      (List.range n).map fun i => Text.ofString "i1 %" ++ letter i := by
  rw [varNames, List.map_map]
  refine List.map_congr_left fun i hi => ?_
  rw [List.mem_range] at hi
  have hname := varName_eq_letter i (by omega)
  have htext := text_param_letter i (by omega)
  rw [Function.comp_apply, hname, Operand.typed, htext]
  rfl

/-- The lines of a finished function that computes an expression. -/
theorem text_eval (n : Nat) (hn : n ≤ maxArgs) (body : Array Instr) (ret : Operand)
    (ls : List Text) (hls : instrLines 0 body.toList = Text.ofLines ls) :
    (Func.eval (varNames n) body (some ret)).text =
      .ok (Text.ofLines ([evalHead n, Text.ofString "entry:"] ++ ls ++
        [Text.ofString "\tret i1 " ++ ret.text, Text.ofString "\x7d"])) := by
  -- The lines are put together from what the printer writes: the first line, the block, the return
  -- and the brace.
  have hhead : Text.ofString "define i1 @eval" ++
      argList ((varNames n).map fun p => (Operand.param p).typed) ++ Text.ofString " \x7b\n" =
        Text.ofLines [evalHead n] := by
    have hopen : Text.ofString "define i1 @eval(" =
        Text.ofString "define i1 @eval" ++ Text.ofString "(" := rfl
    have hclose : Text.ofString ")" ++ Text.ofString " \x7b\n" =
        Text.ofString ") \x7b" ++ [Text.lineFeed] := rfl
    rw [typed_varNames n hn, Text.ofLines, List.flatMap_singleton, evalHead, argList, hopen]
    simp only [List.append_assoc, hclose]
  have hret : blockLine (Text.ofString "ret " ++ ret.typed) =
      Text.ofLines [Text.ofString "\tret i1 " ++ ret.text] := by
    rw [blockLine_eq, Operand.typed]
    rfl
  have hblock : blockText body = Text.ofLines (Text.ofString "entry:" :: ls) := by
    have hentry : Text.ofString "entry:\n" = Text.ofLines [Text.ofString "entry:"] := rfl
    rw [blockText, hls, hentry, ← Text.ofLines_append, List.singleton_append]
  have hend : Text.ofString "\x7d\n" = Text.ofLines [Text.ofString "\x7d"] := rfl
  rw [Func.text, hhead, hblock, hret, hend]
  simp only [← Text.ofLines_append, List.cons_append, List.nil_append, List.append_assoc]

/-- The lines of the function that calls the other one. -/
theorem text_main (bits : List Bool) :
    (Func.main bits).text = .ok (Text.ofLines (mainLines bits)) := by
  -- Only the line of the call depends on the program.
  have hcall : blockLine (Text.ofString "%0 = call i1 @eval" ++
      argList (bits.map fun b => (Operand.const b).typed)) =
        Text.ofLines [Text.ofString "\t%0 = call i1 @eval(" ++
          Text.joinWith (Text.ofString ", ")
            (bits.map fun b => Text.ofString "i1 " ++ Text.ofBool b) ++ Text.ofString ")"] := by
    have hopen : Text.ofString "\t%0 = call i1 @eval(" =
        Text.ofString "\t" ++ Text.ofString "%0 = call i1 @eval" ++ Text.ofString "(" := rfl
    have htyped : (bits.map fun b => (Operand.const b).typed) =
        bits.map fun b => Text.ofString "i1 " ++ Text.ofBool b := rfl
    rw [blockLine_eq, argList, hopen, htyped]
    simp only [List.append_assoc]
  have hhead : Text.ofString "define i32 @main() \x7b\nentry:\n" =
      Text.ofLines [Text.ofString "define i32 @main() \x7b", Text.ofString "entry:"] := rfl
  have hwiden : blockLine (Text.ofString "%1 = zext i1 %0 to i32") =
      Text.ofLines [Text.ofString "\t%1 = zext i1 %0 to i32"] := rfl
  have hret : blockLine (Text.ofString "ret i32 %1") =
      Text.ofLines [Text.ofString "\tret i32 %1"] := rfl
  have hend : Text.ofString "\x7d\n" = Text.ofLines [Text.ofString "\x7d"] := rfl
  rw [Func.text, hcall, hhead, hwiden, hret, hend]
  simp only [← Text.ofLines_append, List.cons_append, List.nil_append, mainLines]

/-- Two functions that have a text are printed with an empty line between them. -/
theorem moduleText_pair (f g : Func) (s t : Text) (hf : f.text = .ok s) (hg : g.text = .ok t) :
    moduleText [f, g] = .ok (s ++ [Text.lineFeed] ++ t) := by
  simp only [moduleText, List.mapM_cons, List.mapM_nil, hf, hg]
  rfl

end IR

/-- The text of a source that is compiled, line by line. It is two functions of one block
    each. The first declares the letters of the bits in order; the lines of its block are
    numbered from zero, work on truth values, declared parameters and earlier lines, are as
    many as the expression needs, and a single `ret` of such a value comes behind them. The
    second calls the first with the bits of the program. -/
theorem compile_is_single_assignment (src text : Text) (h : compile src = .ok text) :
    ∃ (p : Program) (instrs : List Text) (ret : Text),
      parse src = .ok p ∧
      Text.lines text =
        [IR.evalHead p.args.length, Text.ofString "entry:"] ++ instrs ++
          [Text.ofString "\tret i1 " ++ ret, Text.ofString "\x7d", []] ++
          IR.mainLines p.args ++ [[]] ∧
      (∀ k line, instrs[k]? = some line → IR.InstrLine p.args.length k line) ∧
      IR.ValueText p.args.length instrs.length ret ∧
      instrs.length = (p.expr.nodes.map Expr.ownCost).sum := by
  rw [compile, Except.bind_eq_ok_iff] at h
  rcases h with ⟨p, hparse, hcompile⟩
  have hargs := length_args_of_parse src p hparse
  rcases p.compile_eq_ok text hcompile with ⟨body, ret, hmodule, hseq, hsize, hret⟩
  rcases IR.instrLines_eq p.args.length hargs body.toList 0 (fun k i hi => by
    rw [Nat.zero_add]
    exact hseq k i (by rw [← Array.getElem?_toList]; exact hi)) with ⟨ls, htext, hlen, hls⟩
  have hcount : ls.length = body.size := hlen.trans Array.length_toList
  simp only [Nat.zero_add] at hls
  have hvalue := IR.valueText_of_usable p.args.length body.size hargs ret hret
  rw [← hcount] at hvalue hsize
  refine ⟨p, ls, ret.text, hparse, ?_, hls, hvalue, hsize⟩
  -- No line of the block is broken up, so the text can be cut at its line feeds.
  have hbody : ∀ l ∈ ls, Unbroken l := by
    intro l hl
    rcases List.getElem?_of_mem hl with ⟨k, hk⟩
    exact (hls k l hk).unbroken hargs
  rw [IR.moduleText_pair _ _ _ _ (IR.text_eval p.args.length hargs body ret ls htext)
    (IR.text_main p.args), Except.ok.injEq] at hmodule
  rw [← hmodule, Text.lines_apart]
  · simp only [List.append_assoc, List.cons_append, List.nil_append]
  · simp only [List.forall_mem_append, List.forall_mem_cons]
    exact ⟨⟨⟨IR.unbroken_evalHead _ hargs, by decide, List.forall_mem_nil _⟩, hbody⟩,
      (Text.unbroken_append _ _).mpr ⟨by decide, hvalue.unbroken hargs⟩, by decide,
      List.forall_mem_nil _⟩
  · exact IR.unbroken_mainLines p.args

/-- A source whose calls of one argument or none leave no instruction: their operands are
    a parameter and a constant. -/
def brief : Text := Text.ofString "2 1 0 and(or(A), not(B), or(and(), B))"

/-- The text that it is compiled to. -/
def briefText : Text :=
  Text.ofString "define i1 @eval(i1 %A, i1 %B) \x7b\nentry:\n\t%0 = xor i1 %B, true\n" ++
    Text.ofString "\t%1 = or i1 true, %B\n\t%2 = and i1 %A, %0\n\t%3 = and i1 %2, %1\n" ++
    Text.ofString "\tret i1 %3\n\x7d\n\ndefine i32 @main() \x7b\nentry:\n" ++
    Text.ofString "\t%0 = call i1 @eval(i1 true, i1 false)\n\t%1 = zext i1 %0 to i32\n" ++
    Text.ofString "\tret i32 %1\n\x7d\n"

theorem compile_is_single_assignment_brief :
    compile brief = .ok briefText ∧
    ∃ (p : Program) (instrs : List Text) (ret : Text),
      parse brief = .ok p ∧
      Text.lines briefText =
        [IR.evalHead p.args.length, Text.ofString "entry:"] ++ instrs ++
          [Text.ofString "\tret i1 " ++ ret, Text.ofString "\x7d", []] ++
          IR.mainLines p.args ++ [[]] ∧
      (∀ k line, instrs[k]? = some line → IR.InstrLine p.args.length k line) ∧
      IR.ValueText p.args.length instrs.length ret ∧
      instrs.length = (p.expr.nodes.map Expr.ownCost).sum := by
  have hcompile : compile brief = .ok briefText := by decide +kernel
  exact ⟨hcompile, compile_is_single_assignment brief briefText hcompile⟩

end BitLogic
