import ThreadedCode.Proofs.Definitions

/-!
# Running a block

A running block talks to a runtime, which is an oracle for the answers of handlers. A statement has
actions and a course. The machine that steps through the instructions of a block is given opcode by
opcode and knows nothing of statements.
-/

namespace ThreadedCode

/-- What a running block does that the runtime can see. -/
inductive Action where
  /-- Stores a dispatch table, or the block at which a coroutine comes back. -/
  | store (content : Store)
  /-- Asks the predicate handler of an opcode. -/
  | test (opcode : Opcode)
  /-- Calls the handler of an opcode, with its operand words if there are any, and with a block
  to continue at if it takes one. -/
  | call (opcode : Opcode) (operands : Option (List Word)) (continuation : Option Nat)
  deriving DecidableEq, Repr

/-- What the runtime answers when a handler returns. -/
structure Reply where
  /-- The answer of a predicate handler. -/
  holds : Bool
  /-- The block in the slot for the next one, or null. -/
  slot : Option Nat
  deriving DecidableEq, Repr

/-- The runtime answers the last of all actions so far. -/
abbrev Oracle := List Action → Reply

/-- Where control goes after a step. -/
inductive Course where
  /-- On to what follows in the block. -/
  | onward
  /-- Out of the block, which returns the next block or null. -/
  | leaves (target : Option Nat)
  deriving DecidableEq, Repr

namespace Action

/-- The operand words as a handler gets them, which is null if there are none. -/
def passed (words : List Word) : Option (List Word) := if words.isEmpty then none else some words

end Action

/-- Where control goes if the slot decides, provided it is not null. -/
def Reply.ifSet (reply : Reply) : Course :=
  match reply.slot with
  | some target => .leaves (some target)
  | none => .onward

/-- Where control goes after a handler call. -/
def Transfer.course (reply : Reply) : Transfer → Course
  | .stay => .onward
  | .goto block => .leaves (some block)
  | .slot => .leaves reply.slot
  | .slotIfSet => reply.ifSet

namespace Statement

/-- What executing a statement does. -/
def actions : Statement → List Action
  | .goto _ | .halt => []
  | .branch opcode _ => [.test opcode]
  | .call handler =>
    (handler.store.map Action.store).toList
      ++ [.call handler.opcode (Action.passed handler.operands) handler.handoff]

/-- Where control goes after a statement. -/
def course (reply : Reply) : Statement → Course
  | .goto block => .leaves (some block)
  | .halt => .leaves none
  | .branch _ block => if reply.holds then .leaves (some block) else .onward
  | .call handler => handler.transfer.course reply

end Statement

namespace Instruction

/-- The block at an operand. -/
def operand? (instruction : Instruction) (code : Array Word) (index : Nat) : Option Nat :=
  code[instruction.offset + 1 + index]?.bind Word.index?

/-- The words between the opcode and the next instruction. A call through a dispatch table takes
one word more. -/
def operandWords (instruction : Instruction) (code : Array Word) : List Word :=
  let stop := if instruction.opcode = .callMulti then instruction.next + 1 else instruction.next
  (code.extract (instruction.offset + 1) stop).toList

end Instruction

namespace Machine

/-- What an instruction stores before its handler is called: the blocks of a dispatch table, or
the block after the call of the built-in that resumes coroutines. -/
def stored (settings : Settings) (program : Program) (instruction : Instruction) :
    Option (Option Store) :=
  match instruction.opcode with
  | .funMulti => do
    let cases ← (instruction.blockOperands program.code).mapM fun position =>
      program.code[position]?.bind Word.index?
    return some (.dispatch cases)
  | .bCall0 | .bCall1 | .bCall2 | .bCall3 | .bCall4 | .bCall5 | .bCall6 =>
    if (instruction.operand? program.code 0).bind program.builtinName = some settings.resumeBuiltin
    then some (some (.resume instruction.next))
    else some none
  | _ => some none

/-- The block that the handler of an instruction gets. -/
def continuation (code : Array Word) (block : Nat) (instruction : Instruction) :
    Option (Option Nat) :=
  match instruction.opcode with
  | .call | .callMulti | .callV | .callVCond | .yield => some (some instruction.next)
  | .iFor | .sFor | .vFor | .sForRef | .vForRef => some (some block)
  | .pushFun | .coro => some <$> instruction.operand? code 0
  | _ => some none

/-- What stepping over an instruction of a block does. A jump does nothing, a conditional jump asks
its predicate, and everything else calls its handler. -/
def actions (settings : Settings) (program : Program) (block : Nat) (instruction : Instruction) :
    Option (List Action) :=
  match instruction.opcode with
  | .jump => some []
  | .jumpFail | .jumpFailR | .jumpFailN | .jumpNoFail | .jumpNoFailR =>
    some [.test instruction.opcode]
  | opcode => do
    let stored ← stored settings program instruction
    let continuation ← continuation program.code block instruction
    let operands := Action.passed (instruction.operandWords program.code)
    return (stored.map Action.store).toList ++ [.call opcode operands continuation]

/-- To the block at an operand. -/
def toOperand (code : Array Word) (instruction : Instruction) (index : Nat) : Option Course :=
  (instruction.operand? code index).map fun target => .leaves (some target)

/-- Where control goes after an instruction. -/
def course (code : Array Word) (instruction : Instruction) (reply : Reply) : Option Course :=
  match instruction.opcode with
  | .jump => toOperand code instruction 0
  | .jumpFail | .jumpFailR | .jumpFailN | .jumpNoFail | .jumpNoFailR =>
    if reply.holds then toOperand code instruction 0 else some .onward
  | .call | .callMulti => toOperand code instruction 1
  | .callV | .funEnd | .funMulti | .yield | .coEnd | .ret => some (.leaves reply.slot)
  | .callVCond | .iFor | .sFor | .vFor | .sForRef | .vForRef => some reply.ifSet
  | _ => some .onward

/-- What a block returns after its last instruction: null at the end of the program, and the block
that follows otherwise. -/
def fallOff (code : Array Word) (last : Instruction) : Option Nat :=
  if last.opcode = .exit ∨ code.size ≤ last.next then none else some last.next

/-- Steps through the instructions of a block. Gives all actions and the returned value. -/
def run (settings : Settings) (program : Program) (oracle : Oracle) (block : Nat) :
    List Instruction → List Action → Option (List Action × Option Nat)
  | [], _ => none
  | instruction :: rest, history => do
    let history := history ++ (← actions settings program block instruction)
    match ← course program.code instruction (oracle history) with
    | .leaves target => return (history, target)
    | .onward =>
      if rest.isEmpty then return (history, fallOff program.code instruction)
      else run settings program oracle block rest history

end Machine

/-- The instructions of a block: from its first one up to the next start of a block. -/
def Program.blockInstructions (program : Program) (block : Nat) : List Instruction :=
  match program.instructions.dropWhile fun instruction => instruction.offset != block with
  | [] => []
  | first :: rest =>
    first :: rest.takeWhile fun instruction => !program.startsBlock instruction.offset

section Runs

variable {settings : Settings} {program : Program} {oracle : Oracle} {block : Nat}
  {history : List Action}

theorem Machine.run_leaves {instruction : Instruction} {acts : List Action} {target : Option Nat}
    (does : actions settings program block instruction = some acts)
    (goes : course program.code instruction (oracle (history ++ acts)) = some (.leaves target))
    (rest : List Instruction) :
    run settings program oracle block (instruction :: rest) history =
      some (history ++ acts, target) := by
  simp only [run, does, goes, Option.bind_eq_bind, Option.bind_some, Option.pure_def]

theorem Machine.run_onward {instruction : Instruction} {acts : List Action}
    (does : actions settings program block instruction = some acts)
    (goes : course program.code instruction (oracle (history ++ acts)) = some .onward)
    (rest : List Instruction) :
    run settings program oracle block (instruction :: rest) history =
      if rest.isEmpty then some (history ++ acts, fallOff program.code instruction)
      else run settings program oracle block rest (history ++ acts) := by
  simp only [run, does, goes, Option.bind_eq_bind, Option.bind_some, Option.pure_def]

end Runs

end ThreadedCode
