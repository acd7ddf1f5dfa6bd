import ThreadedCode.Word

/-!
# Corrupt programs

The ways in which an instruction stream can fail to be a program, with the position and the word
that show it.
-/

namespace ThreadedCode

/-- Why an instruction stream is no program. -/
inductive Corruption where
  /-- The stream does not begin with a jump to its first block. -/
  | missingEntryJump
  /-- The word where an opcode should be stands for none. -/
  | badOpcode (offset : Nat) (value : Word)
  /-- The operands of an instruction run past the end of the stream. -/
  | truncated (offset : Nat)
  /-- An operand that counts or locates other words is negative. -/
  | badOperand (offset : Nat) (value : Word)
  deriving DecidableEq, Repr

namespace Corruption

/-- The offset the corruption points at. -/
def offset? : Corruption → Option Nat
  | .missingEntryJump => none
  | .badOpcode offset _ | .truncated offset | .badOperand offset _ => some offset

/-- The word the corruption points at. -/
def value? : Corruption → Option Word
  | .badOpcode _ value | .badOperand _ value => some value
  | .missingEntryJump | .truncated _ => none

/-- The message for a reader of the generated code. -/
def message : Corruption → String
  | .missingEntryJump => "missing entry jump"
  | .badOpcode _ value => value.text
  | .truncated offset => "truncated instruction at " ++ toString offset
  | .badOperand offset value => "bad operand " ++ value.text ++ " at " ++ toString offset

/-- The cause with every field spelled out, as it appears in the log. -/
def record : Corruption → String
  | .missingEntryJump => "MissingEntryJump"
  | .badOpcode offset value =>
    "BadOpcode \x7b offset: " ++ toString offset ++ ", value: " ++ value.text ++ " \x7d"
  | .truncated offset => "Truncated \x7b offset: " ++ toString offset ++ " \x7d"
  | .badOperand offset value =>
    "BadOperand \x7b offset: " ++ toString offset ++ ", value: " ++ value.text ++ " \x7d"

end Corruption

end ThreadedCode
