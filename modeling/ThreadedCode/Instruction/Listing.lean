import ThreadedCode.Instruction.Operands

/-!
# Listings

The instructions of a stream, decoded one after the other. A listing starts after the entry jump
and goes on until the stream ends, or until the first word that is no opcode or the first
instruction whose operands do not resolve.
-/

namespace ThreadedCode

/-- An instruction whose operands lie in the stream. -/
structure Instruction where
  offset : Nat
  opcode : Opcode
  span : Span
  deriving DecidableEq, Repr

namespace Instruction

/-- Offset of the first instruction, right after the entry jump. -/
def first : Nat := 2

/-- Offset of the instruction that follows. -/
def next (instruction : Instruction) : Nat := instruction.span.next

/-- The operand words. -/
def operands (instruction : Instruction) (code : Array Word) : List Word :=
  instruction.span.words code

end Instruction

/-- How a listing comes to its end. -/
inductive Ending where
  /-- The stream ends after an instruction. -/
  | complete
  /-- A word stands for no opcode. -/
  | badOpcode (offset : Nat) (value : Word)
  /-- The operands of an instruction do not resolve. -/
  | unresolved (offset : Nat) (opcode : Opcode) (cause : Corruption)
  deriving DecidableEq, Repr

/-- The corruption that ended the listing, if one did. -/
def Ending.corruption? : Ending → Option Corruption
  | .complete => none
  | .badOpcode offset value => some (.badOpcode offset value)
  | .unresolved _ _ cause => some cause

/-- The decoded instructions of a stream. -/
structure Listing where
  instructions : List Instruction
  ending : Ending
  deriving DecidableEq, Repr

/-- A valid opcode met while decoding, whether or not its operands resolve. -/
structure Visit where
  offset : Nat
  opcode : Opcode
  deriving DecidableEq, Repr

namespace Listing

/-- The listing with an instruction in front. -/
def cons (instruction : Instruction) (listing : Listing) : Listing :=
  { listing with instructions := instruction :: listing.instructions }

/-- The listing from a given offset on. -/
def decodeFrom (code : Array Word) (cursor : Nat) : Listing :=
  if h : cursor < code.size then
    match Opcode.ofWord? code[cursor] with
    | none => ⟨[], .badOpcode cursor code[cursor]⟩
    | some opcode =>
      match found : opcode.resolve code (cursor + 1) with
      | .error cause => ⟨[], .unresolved cursor opcode cause⟩
      | .ok span => cons ⟨cursor, opcode, span⟩ (decodeFrom code span.next)
  else ⟨[], .complete⟩
termination_by code.size - cursor
decreasing_by
  have := Opcode.le_of_resolve found
  omega

/-- The listing of a stream. -/
def ofCode (code : Array Word) : Listing := decodeFrom code Instruction.first

/-- The valid opcodes met, in order. The last one may have operands that do not resolve. -/
def visits (listing : Listing) : List Visit :=
  let resolved := listing.instructions.map fun instruction =>
    { offset := instruction.offset, opcode := instruction.opcode : Visit }
  match listing.ending with
  | .unresolved offset opcode _ => resolved ++ [{ offset, opcode }]
  | _ => resolved

end Listing

end ThreadedCode
