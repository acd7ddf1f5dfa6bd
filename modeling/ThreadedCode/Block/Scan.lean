import ThreadedCode.Instruction.Listing
import ThreadedCode.Notice
import ThreadedCode.Program

/-!
# Blocks

A block is a run of instructions that is entered only at its first one. The compiler marked the
offsets at which blocks start. The scan goes over the listing of a program once and records every
block it meets, as far as the program is not corrupt.
-/

namespace ThreadedCode

/-- A block of a program. -/
structure Block where
  /-- Offset of its first instruction, which identifies it. -/
  offset : Nat
  /-- Its first opcode. -/
  first : Opcode
  /-- Number of its instructions. -/
  instructions : Nat
  deriving DecidableEq, Repr

/-- The blocks of a program in ascending order. -/
structure Arena where
  blocks : List Block
  deriving DecidableEq, Repr

namespace Arena

/-- No blocks. -/
def empty : Arena := ⟨[]⟩

/-- The block that starts at an offset. -/
def find? (arena : Arena) (offset : Nat) : Option Block :=
  arena.blocks.find? fun block => block.offset == offset

/-- Does a block start at the offset? -/
def contains (arena : Arena) (offset : Nat) : Bool := (arena.find? offset).isSome

/-- The offsets of the blocks. -/
def offsets (arena : Arena) : List Nat := arena.blocks.map Block.offset

/-- Number of blocks. -/
def size (arena : Arena) : Nat := arena.blocks.length

end Arena

/-- What the scan of a program found. -/
structure Scan where
  /-- The block that the entry jump goes to, if there is an entry jump. -/
  start? : Option Nat
  /-- The blocks found before the scan stopped. -/
  arena : Arena
  /-- The corruption that the scan stopped at. -/
  corruption? : Option Corruption
  deriving DecidableEq, Repr

namespace Scan

/-- How far a scan has come. -/
structure Progress where
  /-- The blocks found so far, last to first. -/
  found : List Block := []
  /-- The block that instructions are counted for, if one has been entered. -/
  current? : Option Nat := none
  deriving DecidableEq, Repr

namespace Progress

/-- Adds a block to blocks that are listed last to first, in place of one at the same offset. -/
def insert (block : Block) : List Block → List Block
  | [] => [block]
  | last :: earlier =>
    if last.offset < block.offset then block :: last :: earlier
    else if last.offset = block.offset then block :: earlier
    else last :: insert block earlier

/-- Counts one more instruction for the block at an offset. -/
def count (offset : Nat) : List Block → List Block
  | [] => []
  | last :: earlier =>
    if last.offset = offset then { last with instructions := last.instructions + 1 } :: earlier
    else last :: count offset earlier

/-- Enters a block of which no instruction is counted yet, if one starts at the visited offset. -/
def enter (startsBlock : Nat → Bool) (progress : Progress) (visit : Visit) : Progress :=
  if startsBlock visit.offset then
    ⟨insert ⟨visit.offset, visit.opcode, 0⟩ progress.found, some visit.offset⟩
  else progress

/-- Takes note of an opcode, which counts for the block entered last. Opcodes before the first block
count for none. -/
def visit (startsBlock : Nat → Bool) (progress : Progress) (visit : Visit) : Progress :=
  let entered := progress.enter startsBlock visit
  match entered.current? with
  | none => entered
  | some block => { entered with found := count block entered.found }

end Progress

/-- The target of the entry jump, with which every program begins. -/
def entry? (code : Array Word) : Option Nat := do
  let jump ← code[0]?
  let target ← code[1]?
  if Opcode.ofWord? jump = some .jump then target.index? else none

/-- The notice that ends the scan of a listing. -/
def closing (start : Nat) (arena : Arena) : Ending → List Notice
  | .badOpcode offset value => [.corruptOpcode value offset]
  | .unresolved offset opcode _ => [.corruptInstruction opcode offset]
  | .complete =>
    (if arena.contains start then [] else [.entryUndeclared start])
      ++ [.blocksFound arena.size]

/-- Scans a program for its blocks. -/
def ofProgram (program : Program) : Scan × List Notice :=
  match entry? program.code with
  | none => (⟨none, .empty, some .missingEntryJump⟩, [.noEntryJump])
  | some start =>
    let listing := Listing.ofCode program.code
    let progress := listing.visits.foldl (Progress.visit program.startsBlock) {}
    let arena : Arena := ⟨progress.found.reverse⟩
    let found := arena.blocks.map fun block => Notice.blockStarts block.offset block.first
    (⟨some start, arena, listing.ending.corruption?⟩,
      found ++ closing start arena listing.ending)

end Scan

end ThreadedCode
