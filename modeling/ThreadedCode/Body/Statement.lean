import ThreadedCode.Opcode.Flow
import ThreadedCode.Settings

/-!
# Statements

The body of a block is a sequence of statements. A statement either goes to another block, ends
the program, or calls the handler of an instruction and then perhaps goes to another block. The
statements of a body say everything that the generated code does. How they are spelled is settled
by `Statement.render` alone.
-/

namespace ThreadedCode

/-- What is stored in the runtime state before a handler is called. -/
inductive Store where
  /-- The blocks of a dispatch table. -/
  | dispatch (cases : List Nat)
  /-- The block at which a resumed coroutine comes back. -/
  | resume (block : Nat)
  deriving DecidableEq, Repr

/-- Where control goes after a handler was called. -/
inductive Transfer where
  /-- On to the next statement. -/
  | stay
  /-- To a block. -/
  | goto (block : Nat)
  /-- To the block in the slot for the next one. -/
  | slot
  /-- To the block in the slot for the next one, if there is one. -/
  | slotIfSet
  deriving DecidableEq, Repr

/-- The call of a handler. -/
structure HandlerCall where
  opcode : Opcode
  /-- The operand words passed to the handler. -/
  operands : List Word
  /-- What is stored before the call. -/
  store : Option Store
  /-- The block passed to the handler. -/
  handoff : Option Nat
  /-- A note for the reader. -/
  note : Option String
  /-- Where control goes after the call. -/
  transfer : Transfer
  deriving DecidableEq, Repr

/-- A statement in the body of a block. -/
inductive Statement where
  /-- Goes to a block. -/
  | goto (block : Nat)
  /-- Goes to a block if the predicate handler of the opcode says so. -/
  | branch (opcode : Opcode) (block : Nat)
  /-- Calls a handler. -/
  | call (handler : HandlerCall)
  /-- Ends the program. -/
  | halt
  deriving DecidableEq, Repr

namespace Transfer

/-- Does control always leave the body here? -/
def leaves : Transfer → Bool
  | .goto _ | .slot => true
  | .stay | .slotIfSet => false

/-- The block named by the transfer. -/
def references : Transfer → List Nat
  | .goto block => [block]
  | _ => []

/-- The expression for a block as the value that a body returns. -/
def target (settings : Settings) (block : Nat) : String :=
  "(void *)" ++ settings.blockName block

/-- The end of a handler call. -/
def render (settings : Settings) : Transfer → String
  | .stay => ""
  | .goto block => " return " ++ target settings block ++ ";"
  | .slot => " return (void *)" ++ settings.member settings.nextCallTargetSlot ++ ";"
  | .slotIfSet =>
    let slot := settings.member settings.nextCallTargetSlot
    " if (" ++ slot ++ ") return (void *)" ++ slot ++ ";"

end Transfer

namespace Store

/-- The blocks named by the store. -/
def references : Store → List Nat
  | .dispatch cases => cases
  | .resume block => [block]

/-- The assignment in front of a handler call. -/
def render (settings : Settings) : Store → String
  | .dispatch cases =>
    "static " ++ settings.qualifiedBlockType ++ " mmtable[] = \x7b"
      ++ ", ".intercalate (cases.map settings.blockName) ++ "\x7d; "
      ++ settings.member settings.nextTableSlot ++ " = mmtable; "
  | .resume block =>
    settings.member settings.nextCallTargetSlot ++ " = " ++ settings.blockName block ++ "; "

end Store

namespace HandlerCall

/-- The blocks named by the call, in order. -/
def references (call : HandlerCall) : List Nat :=
  (call.store.map Store.references).getD [] ++ call.handoff.toList
    ++ call.transfer.references

/-- The array of operand words in front of a handler call. -/
def renderOperands (operands : List Word) : String :=
  if operands.isEmpty then ""
  else "static const int args[] = \x7b" ++ ", ".intercalate (operands.map Word.text) ++ "\x7d; "

/-- The call itself. -/
def renderInvocation (settings : Settings) (call : HandlerCall) : String :=
  settings.member (settings.handlerPrefix ++ call.opcode.name) ++ "("
    ++ (if call.operands.isEmpty then "nullptr" else "args")
    ++ (call.handoff.map fun block => ", " ++ settings.blockName block).getD "" ++ ");"

/-- The comment after the call. -/
def renderNote (call : HandlerCall) : String :=
  (call.note.map fun note => " /* " ++ note ++ " */").getD ""

/-- The whole line of a handler call. -/
def render (settings : Settings) (call : HandlerCall) : String :=
  "\x7b " ++ renderOperands call.operands ++ (call.store.map (Store.render settings)).getD ""
    ++ call.renderInvocation settings ++ call.renderNote ++ call.transfer.render settings
    ++ " \x7d"

end HandlerCall

namespace Statement

/-- Does control always leave the body here? -/
def leaves : Statement → Bool
  | .goto _ | .halt => true
  | .branch .. => false
  | .call handler => handler.transfer.leaves

/-- The blocks named by the statement, in order. -/
def references : Statement → List Nat
  | .goto block | .branch _ block => [block]
  | .call handler => handler.references
  | .halt => []

/-- The line of the generated code. -/
def render (settings : Settings) : Statement → String
  | .goto block => "return " ++ Transfer.target settings block ++ ";"
  | .branch opcode block =>
    "if (" ++ settings.member (settings.handlerPrefix ++ opcode.name) ++ "()) return "
      ++ Transfer.target settings block ++ ";"
  | .call handler => handler.render settings
  | .halt => "return nullptr;"

end Statement

end ThreadedCode
