import ThreadedCode.Block.Scan
import ThreadedCode.Body.Statement
import ThreadedCode.Opcode.Assignment
import ThreadedCode.Text.Comment
import ThreadedCode.Text.Literal
import ThreadedCode.Trace

/-!
# From instructions to statements

The statement that stands for an instruction. The flow of its opcode decides where it goes, and its
operands name the blocks. Naming a block that the program does not have is worth a notice. A block
operand that is no offset is corrupt.
-/

namespace ThreadedCode

namespace Lowering

/-- What lowering an instruction leaves behind. -/
abbrev Lowered (α : Type) := Trace Notice Corruption α

/-- Names a block, with a notice if the program has no such block. -/
def refer (arena : Arena) (block : Nat) : Lowered Nat :=
  ⟨if arena.contains block then [] else [.undeclared block], .ok block⟩

/-- The block at an operand. -/
def operandBlock (span : Span) (operands : List Word) (index : Nat) : Except Corruption Nat :=
  Operands.indexAt (span.start + index) operands[index]?

/-- Names the block at an operand. -/
def referOperand (arena : Arena) (span : Span) (operands : List Word) (index : Nat) :
    Lowered Nat := do
  let block ← Trace.ofExcept (operandBlock span operands index)
  refer arena block

/-- Names the blocks of the given cases of a dispatch table, each found behind the tags of its
arguments. -/
def caseBlocks (arena : Arena) (span : Span) (operands : List Word) (arguments : Nat) :
    List Nat → Lowered (List Nat)
  | [] => pure []
  | case :: rest => do
    let block ← referOperand arena span operands (2 + (arguments + 1) * case + arguments)
    let blocks ← caseBlocks arena span operands arguments rest
    return block :: blocks

/-- Names the blocks of a dispatch table. -/
def dispatchTable (arena : Arena) (span : Span) (operands : List Word) : Lowered (List Nat) := do
  let cases ← Trace.ofExcept (operandBlock span operands 0)
  let arguments ← Trace.ofExcept (operandBlock span operands 1)
  caseBlocks arena span operands arguments (List.range cases)

/-- Is the built-in at the first operand the one that resumes a coroutine? -/
def resumes (settings : Settings) (program : Program) (operands : List Word) : Bool :=
  (operands[0]?.bind Word.index?).bind program.builtinName == some settings.resumeBuiltin

/-- What is stored before the handler is called. -/
def store (settings : Settings) (program : Program) (arena : Arena) (instruction : Instruction)
    (operands : List Word) : Lowered (Option Store) :=
  match instruction.opcode.flow with
  | .funMulti => do
    let blocks ← dispatchTable arena instruction.span operands
    return some (.dispatch blocks)
  | .builtin =>
    if resumes settings program operands then do
      let block ← refer arena instruction.next
      return some (.resume block)
    else return none
  | _ => return none

/-- The block passed to the handler. -/
def handoff (arena : Arena) (block : Nat) (instruction : Instruction)
    (operands : List Word) : Lowered (Option Nat) :=
  match instruction.opcode.flow.handoff with
  | .none => return none
  | .nextBlock => some <$> refer arena instruction.next
  | .currentBlock => some <$> refer arena block
  | .firstOperand => some <$> referOperand arena instruction.span operands 0

/-- Where control goes after the call. -/
def transfer (arena : Arena) (instruction : Instruction) (operands : List Word) :
    Lowered Transfer :=
  match instruction.opcode.flow.departure with
  | .fallThrough => return .stay
  | .staticTarget index => .goto <$> referOperand arena instruction.span operands index
  | .runtimeTarget => return .slot
  | .guardedRuntimeTarget => return .slotIfSet

/-- The note about an instruction: what its operands stand for, if the program has names. -/
def note (program : Program) (opcode : Opcode) (operands : List Word) : Option String :=
  let index (position : Nat) : Option Nat := operands[position]?.bind Word.index?
  match opcode.caption with
  | .none => none
  | .builtin => ((index 0).bind program.builtinName).map Comment.guardText
  | .variableName => ((index 0).bind program.identifier).map Comment.guardText
  | .assignment => do
    let op ← operands[0]?.bind AssignOp.ofWord?
    let target ← (index 1).bind program.identifier
    return op.name ++ " " ++ Comment.guardText target
  | .stringLiteral => ((index 0).bind program.string).map Literal.quote
  | .function => ((index 0).bind program.functionName).map Comment.guardText

/-- The call of the handler of an instruction. -/
def call (settings : Settings) (program : Program) (arena : Arena) (block : Nat)
    (instruction : Instruction) (operands : List Word) : Lowered HandlerCall := do
  let store ← store settings program arena instruction operands
  let handoff ← handoff arena block instruction operands
  let transfer ← transfer arena instruction operands
  Trace.emit (.handlerWritten instruction.opcode instruction.offset)
  return {
    opcode := instruction.opcode
    operands
    store
    handoff
    note := note program instruction.opcode operands
    transfer }

/-- The statement for an instruction of the given block. -/
def statement (settings : Settings) (program : Program) (arena : Arena) (block : Nat)
    (instruction : Instruction) : Lowered Statement := do
  let operands := instruction.operands program.code
  Trace.emit (.instruction block instruction.opcode operands)
  match instruction.opcode.flow with
  | .jump => .goto <$> referOperand arena instruction.span operands 0
  | .conditionalJump =>
    .branch instruction.opcode <$> referOperand arena instruction.span operands 0
  | _ => .call <$> call settings program arena block instruction operands

end Lowering

end ThreadedCode
