import BitLogic.IR.Builder

/-!
# Modules as text

A module is printed as LLVM assembly. Results have no names and are numbered from
zero in each function. A parameter whose name holds anything but letters, digits and
the signs `-`, `$`, `.` and `_` is put in quotation marks, and inside these a byte
that is not printable ASCII, a quotation mark or a backslash is given by its
number.

## Main definitions

* `IR.escapeName`: A name as it stands in the text.
* `IR.Operand.text`, `IR.Instr.text`: Operands and instructions.
* `IR.Func.text`: A function, if it is finished.
* `IR.moduleText`: A module, if all its functions are finished.
* `compile`: The module of the program that a source spells.
-/

namespace BitLogic

namespace IR

/-- A byte that needs no quotation marks. -/
def isPlainNameByte (b : UInt8) : Bool :=
  Lexer.isLetter b || Token.isDigit b || b == 45 || b == 36 || b == 46 || b == 95

/-- A byte that stands for itself between quotation marks. -/
def isQuotedNameByte (b : UInt8) : Bool := 32 ≤ b && b ≤ 126 && b ≠ 34 && b ≠ 92

/-- A name as it stands in the text. -/
def escapeName (name : Text) : Text :=
  if name.all isPlainNameByte then name
  else [34] ++
    (name.flatMap fun b =>
      if isQuotedNameByte b then [b]
      else [92, Text.upperHexDigit (b.toNat / 16), Text.upperHexDigit (b.toNat % 16)]) ++ [34]

/-- An operand without its type. -/
def Operand.text : Operand → Text
  | .const b => Text.ofBool b
  | .param name => Text.ofString "%" ++ escapeName name
  | .result i => Text.ofString "%" ++ Text.ofNat i

/-- An operand with its type. -/
def Operand.typed (x : Operand) : Text := Text.ofString "i1 " ++ x.text

/-- The name of an operation. -/
def Op.text : Op → Text
  | .and => Text.ofString "and"
  | .or => Text.ofString "or"
  | .xor => Text.ofString "xor"

/-- The instruction at a position of a block. -/
def Instr.text (i : Instr) (index : Nat) : Text :=
  (Operand.result index).text ++ Text.ofString " = " ++ i.op.text ++ Text.ofString " i1 " ++
    i.lhs.text ++ Text.ofString ", " ++ i.rhs.text

/-- A line of a block. -/
def blockLine (t : Text) : Text := Text.ofString "\t" ++ t ++ Text.ofString "\n"

/-- The lines of the instructions of a block, the first of them at a position. -/
def instrLines (index : Nat) : List Instr → Text
  | [] => []
  | i :: is => blockLine (i.text index) ++ instrLines (index + 1) is

/-- The block of a function, its end apart. -/
def blockText (body : Array Instr) : Text :=
  Text.ofString "entry:\n" ++ instrLines 0 body.toList

/-- A list between parentheses. -/
def argList (ts : List Text) : Text :=
  Text.ofString "(" ++ Text.joinWith (Text.ofString ", ") ts ++ Text.ofString ")"

/-- A function, if it is finished. -/
def Func.text : Func → Except Breach Text
  | .eval _ body none => .error (.unfinishedBlock (blockText body))
  | .eval params body (some ret) =>
    .ok (Text.ofString "define i1 @eval" ++
      argList (params.map fun p => (Operand.param p).typed) ++ Text.ofString " \x7b\n" ++
      blockText body ++ blockLine (Text.ofString "ret " ++ ret.typed) ++ Text.ofString "\x7d\n")
  | .main bits =>
    .ok (Text.ofString "define i32 @main() \x7b\nentry:\n" ++
      blockLine (Text.ofString "%0 = call i1 @eval" ++
        argList (bits.map fun b => (Operand.const b).typed)) ++
      blockLine (Text.ofString "%1 = zext i1 %0 to i32") ++
      blockLine (Text.ofString "ret i32 %1") ++ Text.ofString "\x7d\n")

/-- A module, if all its functions are finished; otherwise the first that is not
    decides. -/
def moduleText (fs : List Func) : Except Breach Text :=
  (fs.mapM Func.text).map (Text.joinWith (Text.ofString "\n"))

/-- The module of a program alone. -/
def ofProgram (p : Program) : Except Stop (List Func) :=
  match Builder.empty.build p with
  | (none, b) => .ok b.funcs
  | (some stop, _) => .error stop

end IR

/-- The text of the module of a program. -/
def Program.compile (p : Program) : Except Stop Text := do
  let fs ← IR.ofProgram p
  match IR.moduleText fs with
  | .error b => .error (.breach b)
  | .ok t => .ok t

/-- The text of the module of the program that a source spells. -/
def compile (src : Text) : Except Stop Text := parse src >>= Program.compile

end BitLogic
