import ThreadedCode.Opcode.Basic

/-!
# What each opcode does

Three tables over the instruction set: how the operand words after an opcode are laid out, what
the opcode does to control flow, and which name or text describes it to a reader of the generated
code. The control flow table is coarse on purpose. Two opcodes of one flow leave their block in
the same way, so everything the generated code does after a handler returns follows from the flow
alone.
-/

namespace ThreadedCode

/-- How the operand words after an opcode are laid out. -/
inductive OperandShape where
  /-- A fixed number of words. -/
  | fixed (words : Nat)
  /-- Body, return information, a count, and that many captures. -/
  | coroutine
  /-- Function, dispatch table offset, return information, and one tag per argument. The number
  of arguments is found at the dispatch table. -/
  | callMulti
  /-- A count and that many parameters, a count and that many locals, and frame information. -/
  | funStart
  /-- The number of cases, the number of arguments, and the cases. A case is one tag per argument
  followed by the offset of its body. -/
  | funMulti
  deriving DecidableEq, Repr

/-- What an opcode does to control flow. -/
inductive Flow where
  /-- Runs its handler and carries on with the next instruction. -/
  | plain
  /-- Goes to the block at its operand. -/
  | jump
  /-- Goes to the block at its operand if its predicate handler says so. -/
  | conditionalJump
  /-- Calls a statically known function. -/
  | call
  /-- Calls through a dispatch table. -/
  | callMulti
  /-- Calls a function value. -/
  | callIndirect
  /-- Calls a function value, if there is one. -/
  | callIndirectCond
  /-- Suspends the running coroutine. -/
  | yield
  /-- Runs one iteration of a loop over an indexed collection. -/
  | loop
  /-- Pushes a closure whose body is the block at the first operand. -/
  | pushFun
  /-- Creates a coroutine whose body is the block at the first operand. -/
  | coroutine
  /-- Opens a function. -/
  | funStart
  /-- Selects one of several function bodies through a dispatch table. -/
  | funMulti
  /-- Closes a function. -/
  | funEnd
  /-- Closes a coroutine body. -/
  | coEnd
  /-- Returns from a function. -/
  | ret
  /-- Calls a built-in function. -/
  | builtin
  /-- Ends the program. -/
  | exit
  deriving DecidableEq, Repr

/-- The block handed to a handler along with its operands. -/
inductive Handoff where
  /-- No block. -/
  | none
  /-- The block right after the instruction, where a call returns to. -/
  | nextBlock
  /-- The block the instruction is in, where a loop comes back to. -/
  | currentBlock
  /-- The block at the first operand, where a body starts. -/
  | firstOperand
  deriving DecidableEq, Repr

/-- Where control goes once a handler has run. -/
inductive Departure where
  /-- On to the next instruction. -/
  | fallThrough
  /-- To the block at the given operand. -/
  | staticTarget (operand : Nat)
  /-- To the block the runtime chose. -/
  | runtimeTarget
  /-- To the block the runtime chose, if it chose one. -/
  | guardedRuntimeTarget
  deriving DecidableEq, Repr

/-- What a reader of the generated code is told about an instruction. -/
inductive Caption where
  /-- Nothing. -/
  | none
  /-- The built-in at the first operand. -/
  | builtin
  /-- The variable at the first operand. -/
  | variableName
  /-- The assignment operator at the first operand and the variable at the second. -/
  | assignment
  /-- The text of the string at the first operand. -/
  | stringLiteral
  /-- The function at the first operand. -/
  | function
  deriving DecidableEq, Repr

namespace Opcode

/-- The layout of the operand words after the opcode. -/
def shape : Opcode → OperandShape
  | .pushInt | .pushFlt | .pushStr | .pushVar | .pushVarRef | .pushFld | .pushFldMRef
  | .pushLoc | .lvalIdxI | .lvalIdxV | .a2s | .isType | .newObject | .bCall0 | .bCall1
  | .bCall2 | .bCall3 | .bCall4 | .bCall5 | .bCall6 | .pushFun | .jump | .jumpFail
  | .jumpFailR | .jumpFailN | .jumpNoFail | .jumpNoFailR | .logRead => .fixed 1
  | .pushInt64 | .pushFlt64 | .lvalVar | .lvalFld | .lvalLoc | .newVec | .ret
  | .logWrite => .fixed 2
  | .call => .fixed 3
  | .coro => .coroutine
  | .callMulti => .callMulti
  | .funStart => .funStart
  | .funMulti => .funMulti
  | _ => .fixed 0

/-- What the opcode does to control flow. -/
def flow : Opcode → Flow
  | .jump => .jump
  | .jumpFail | .jumpFailR | .jumpFailN | .jumpNoFail | .jumpNoFailR => .conditionalJump
  | .call => .call
  | .callMulti => .callMulti
  | .callV => .callIndirect
  | .callVCond => .callIndirectCond
  | .yield => .yield
  | .iFor | .sFor | .vFor | .sForRef | .vForRef => .loop
  | .pushFun => .pushFun
  | .coro => .coroutine
  | .funStart => .funStart
  | .funMulti => .funMulti
  | .funEnd => .funEnd
  | .coEnd => .coEnd
  | .ret => .ret
  | .bCall0 | .bCall1 | .bCall2 | .bCall3 | .bCall4 | .bCall5 | .bCall6 => .builtin
  | .exit => .exit
  | _ => .plain

/-- What a reader of the generated code is told about the instruction. -/
def caption : Opcode → Caption
  | .pushVar | .pushVarRef => .variableName
  | .lvalVar => .assignment
  | .pushStr => .stringLiteral
  | .call | .callMulti => .function
  | .bCall0 | .bCall1 | .bCall2 | .bCall3 | .bCall4 | .bCall5 | .bCall6 => .builtin
  | _ => .none

end Opcode

namespace Flow

/-- The block handed to the handler. -/
def handoff : Flow → Handoff
  | .call | .callMulti | .callIndirect | .callIndirectCond | .yield => .nextBlock
  | .loop => .currentBlock
  | .pushFun | .coroutine => .firstOperand
  | _ => .none

/-- Where control goes once the handler has run. The jumps leave their block without one, so
they count as falling through here. -/
def departure : Flow → Departure
  | .call | .callMulti => .staticTarget 1
  | .callIndirect | .funEnd | .funMulti | .yield | .coEnd | .ret => .runtimeTarget
  | .callIndirectCond | .loop => .guardedRuntimeTarget
  | _ => .fallThrough

end Flow

end ThreadedCode
