import ThreadedCode.Corruption
import ThreadedCode.Opcode.Basic

/-!
# Notices

What the code generator tells about its work while it goes on. A notice has a level and a text, and
a log keeps the notices that are at least as severe as its threshold.
-/

namespace ThreadedCode

/-- How severe a notice is, most severe first. -/
inductive Level where
  | error | warn | info | debug | trace
  deriving DecidableEq, Repr

namespace Level

/-- The name of the level in a log. -/
def name : Level → String
  | .error => "ERROR"
  | .warn => "WARN"
  | .info => "INFO"
  | .debug => "DEBUG"
  | .trace => "TRACE"

/-- Does a log with this threshold keep notices of the given level? -/
def keeps (threshold level : Level) : Bool := level.ctorIdx ≤ threshold.ctorIdx

end Level

/-- Something worth telling. -/
inductive Notice where
  /-- A bytecode file goes on after its last section. -/
  | trailingBytes (count : Nat)
  /-- The instruction stream has no entry jump. -/
  | noEntryJump
  /-- A word that should be an opcode is none. -/
  | corruptOpcode (value : Word) (offset : Nat)
  /-- The operands of an instruction do not resolve. -/
  | corruptInstruction (opcode : Opcode) (offset : Nat)
  /-- A block was found. -/
  | blockStarts (offset : Nat) (opcode : Opcode)
  /-- The entry jump goes to an offset where no block starts. -/
  | entryUndeclared (block : Nat)
  /-- All blocks were found. -/
  | blocksFound (count : Nat)
  /-- An instruction before the first block is left out. -/
  | unreachable (opcode : Opcode) (offset : Nat)
  /-- The body of a block is opened. -/
  | opening (block : Nat) (instructions : Nat) (first : Opcode)
  /-- An instruction is about to be written. -/
  | instruction (block : Nat) (opcode : Opcode) (operands : List Word)
  /-- The call of a handler is complete. -/
  | handlerWritten (opcode : Opcode) (offset : Nat)
  /-- A block is referred to that is none. -/
  | undeclared (block : Nat)
  /-- The last block has no end of its own. -/
  | fallsOffEnd
  /-- All bodies were written. -/
  | bodiesWritten (count : Nat)
  /-- A corrupt operand was met while writing bodies. -/
  | corruptOperand (corruption : Corruption)
  /-- The stored bytes are about to be embedded. -/
  | embedding (words : Nat)
  /-- The whole program was compiled. -/
  | compiled (blocks : Nat) (start : Nat)
  /-- A file is about to be read. -/
  | reading (path : String)
  /-- A corrupt program was given up. -/
  | stopped (path : String) (corruption : Corruption)
  /-- A file is about to be written. -/
  | writing (blocks : Nat) (path : String)
  deriving DecidableEq, Repr

namespace Notice

/-- How severe the notice is. -/
def level : Notice → Level
  | .noEntryJump | .corruptOpcode .. | .corruptInstruction .. | .corruptOperand _
  | .stopped .. => .error
  | .trailingBytes _ | .entryUndeclared _ | .unreachable .. | .undeclared _ => .warn
  | .reading _ | .writing .. => .info
  | .blocksFound _ | .fallsOffEnd | .bodiesWritten _ | .embedding _ | .compiled .. => .debug
  | .blockStarts .. | .opening .. | .instruction .. | .handlerWritten .. => .trace

/-- A block as notices name it. -/
def blockLabel (block : Nat) : String := "b" ++ toString block

/-- A list of words as notices show it. -/
def wordList (words : List Word) : String :=
  "[" ++ ", ".intercalate (words.map Word.text) ++ "]"

/-- The text of the notice. -/
def text : Notice → String
  | .trailingBytes count =>
    "Ignoring " ++ toString count ++ " trailing bytes in bytecode file"
  | .noEntryJump => "Bytecode does not start with a jump to the first block"
  | .corruptOpcode value offset =>
    "Corrupt opcode " ++ value.text ++ " at offset " ++ toString offset
  | .corruptInstruction opcode offset =>
    "Corrupt " ++ opcode.name ++ " instruction at offset " ++ toString offset
  | .blockStarts offset opcode =>
    "Block starts at " ++ toString offset ++ " with " ++ opcode.name
  | .entryUndeclared block =>
    "Entry jump targets " ++ blockLabel block ++ ", which does not start a block"
  | .blocksFound count => "Found " ++ toString count ++ " blocks"
  | .unreachable opcode offset =>
    "Skipping unreachable " ++ opcode.name ++ " at offset " ++ toString offset
  | .opening block instructions first =>
    "Opening " ++ blockLabel block ++ ": " ++ toString instructions
      ++ " instructions starting with " ++ first.name
  | .instruction block opcode operands =>
    blockLabel block ++ ": " ++ opcode.name ++ " " ++ wordList operands
  | .handlerWritten opcode offset =>
    opcode.name ++ " at offset " ++ toString offset ++ " written"
  | .undeclared block =>
    "Reference to " ++ blockLabel block ++ ", which does not start a block"
  | .fallsOffEnd => "Last block falls off the end of the program"
  | .bodiesWritten count => "Wrote " ++ toString count ++ " block bodies"
  | .corruptOperand corruption =>
    "Corrupt operand while writing block bodies: " ++ corruption.record
  | .embedding words => "Embedding " ++ toString words ++ " words of bytecode"
  | .compiled blocks start =>
    "Translated " ++ toString blocks ++ " blocks starting at " ++ blockLabel start
  | .reading path => "Reading and translating '" ++ path ++ "'"
  | .stopped path corruption =>
    "Stopped translating '" ++ path ++ "' on corrupt bytecode (" ++ corruption.record
      ++ "), nothing written"
  | .writing blocks path => "Writing " ++ toString blocks ++ " blocks to '" ++ path ++ "'"

/-- The notices that a log with the given threshold keeps. -/
def logged (threshold : Level) (notices : List Notice) : List Notice :=
  notices.filter fun notice => threshold.keeps notice.level

end Notice

end ThreadedCode
