import ThreadedCode.Corruption
import ThreadedCode.Opcode.Flow

/-!
# Operands

Where the operands of one instruction sit in the instruction stream. `resolve` follows the
layout of an opcode from the word after it, and either finds the whole instruction inside the
stream or says at which offset it fails to be one.

A call through a dispatch table reports one operand more than it occupies, so its window reaches
into the instruction that follows.
-/

namespace ThreadedCode

/-- The operands of one instruction. -/
structure Span where
  /-- Offset of the first operand, right after the opcode. -/
  start : Nat
  /-- Offset of the next instruction. -/
  next : Nat
  /-- Number of operand words the instruction reports. -/
  arity : Nat
  deriving DecidableEq, Repr

namespace Span

/-- The operand words, as far as the stream holds them. -/
def words (span : Span) (code : Array Word) : List Word :=
  (code.extract span.start (span.start + span.arity)).toList

/-- The operand words are a window of the stream. -/
theorem words_eq_take_drop (span : Span) (code : Array Word) :
    span.words code = (code.toList.drop span.start).take span.arity := by
  simp [words, List.extract_eq_take_drop]

end Span

namespace Operands

/-- Passes over some words that must all lie in the stream. -/
def skip (code : Array Word) (cursor words : Nat) : Except Corruption Nat :=
  match Offset.add? cursor words with
  | some next => if next ≤ code.size then .ok next else .error (.truncated cursor)
  | none => .error (.truncated cursor)

/-- Reads a word as a count or a position, where a word that is neither is corrupt. -/
def indexAt (offset : Nat) (word? : Option Word) : Except Corruption Nat :=
  match word? with
  | none => .error (.truncated offset)
  | some word =>
    match word.index? with
    | some index => .ok index
    | none => .error (.badOperand offset word)

/-- Reads the word at the cursor as a count or a position. -/
def readCount (code : Array Word) (cursor : Nat) : Except Corruption Nat :=
  indexAt cursor code[cursor]?

/-- The number of arguments recorded at a dispatch table. The table is reached through the
operand at `slot`, so a table outside the stream is held against that operand. -/
def tableArguments (code : Array Word) (slot table : Nat) : Except Corruption Nat :=
  match (Offset.add? table 2).bind fun position => code[position]? with
  | some word => indexAt (table + 2) (some word)
  | none => .error (.truncated slot)

/-- Where the operands end and how many there are, for operands that start at the cursor. -/
def extent (code : Array Word) (cursor : Nat) :
    OperandShape → Except Corruption (Nat × Nat)
  | .fixed words => do
    let next ← skip code cursor words
    return (next, words)
  | .coroutine => do
    let counted ← skip code cursor 2
    let captures ← readCount code counted
    let next ← skip code (counted + 1) captures
    return (next, captures + 3)
  | .callMulti => do
    let slot ← skip code cursor 1
    let table ← readCount code slot
    let arguments ← tableArguments code slot table
    let tags ← skip code (slot + 1) 1
    let next ← skip code tags arguments
    return (next, arguments + 4)
  | .funStart => do
    let parameters ← readCount code cursor
    let counted ← skip code (cursor + 1) parameters
    let locals ← readCount code counted
    let frame ← skip code (counted + 1) locals
    let next ← skip code frame 1
    return (next, parameters + locals + 3)
  | .funMulti => do
    let cases ← readCount code cursor
    let arguments ← readCount code (cursor + 1)
    match (Offset.add? arguments 1).bind fun width => Offset.mul? width cases with
    | none => .error (.truncated cursor)
    | some size => do
      let next ← skip code (cursor + 2) size
      return (next, size + 2)

end Operands

/-- The operands of an instruction whose opcode stands right before the cursor. -/
def Opcode.resolve (opcode : Opcode) (code : Array Word) (cursor : Nat) :
    Except Corruption Span := do
  let (next, arity) ← Operands.extent code cursor opcode.shape
  return { start := cursor, next, arity }

namespace Operands

theorem le_of_skip {code : Array Word} {cursor words next : Nat}
    (found : skip code cursor words = .ok next) : cursor ≤ next ∧ next ≤ code.size := by
  unfold skip at found
  split at found
  · rename_i sum added
    have := (Offset.add?_eq_some_iff.mp added).2
    split at found
    · cases found
      omega
    · cases found
  · cases found

theorem le_of_extent {code : Array Word} {cursor next arity : Nat} {shape : OperandShape}
    (found : extent code cursor shape = .ok (next, arity)) :
    cursor ≤ next ∧ next ≤ code.size := by
  cases shape <;> simp only [extent, bind, Except.bind, pure, Except.pure] at found
  all_goals
    repeat' split at found
    all_goals try cases found
    all_goals grind [→ le_of_skip]

end Operands

/-- The next instruction lies after the operands and not past the end of the stream. -/
theorem Opcode.le_of_resolve {opcode : Opcode} {code : Array Word} {cursor : Nat} {span : Span}
    (found : opcode.resolve code cursor = .ok span) :
    cursor ≤ span.next ∧ span.next ≤ code.size := by
  simp only [resolve, bind, Except.bind, pure, Except.pure] at found
  split at found
  · cases found
  · rename_i extent located
    cases found
    exact Operands.le_of_extent located

end ThreadedCode
