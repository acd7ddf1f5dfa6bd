import Std.Data.HashMap
import ThreadedCode.Notice
import ThreadedCode.Program
import ThreadedCode.Trace

/-!
# Bytecode files

A bytecode file in memory: its sections beside the exact bytes it is stored as. A file that was
read keeps the bytes it was read from, with whatever follows its last section.
-/

namespace ThreadedCode

/-- A bytecode file in memory. -/
structure Image where
  sections : Sections
  raw : Bytes
  deriving DecidableEq, Repr

namespace Image

/-- The file that stores the given sections. -/
def ofSections (sections : Sections) : Image := ⟨sections, Sections.codec.encode sections⟩

/-- Reads a file. Bytes after the last section are kept but not read. -/
def parse (bytes : Bytes) : Trace Notice ReadError Image := do
  let (sections, rest) ← Trace.ofExcept (Sections.codec.read ⟨bytes, .ends⟩)
  unless rest.bytes.isEmpty do
    Trace.emit (.trailingBytes rest.bytes.length)
  return ⟨sections, bytes⟩

/-- Notes the position of a function table entry under its start. A later entry with the same
start takes the place of an earlier one, and a negative start is no offset. -/
def indexEntry (index : Std.HashMap Nat Nat) (entry : FunctionEntry × Nat) :
    Std.HashMap Nat Nat :=
  match entry.1.start.index? with
  | some start => index.insert start entry.2
  | none => index

/-- Positions in the function table by the offset at which the function starts. -/
def functionIndex (functions : List FunctionEntry) : Std.HashMap Nat Nat :=
  functions.zipIdx.foldl indexEntry ∅

/-- The program that the file stores. -/
def program (image : Image) : Program :=
  let sections := image.sections
  let attributes := sections.attributes.toArray
  let functions := sections.functions.toArray
  let starts := functionIndex sections.functions
  let strings := sections.strings.toArray
  let identifiers := sections.identifiers.toArray
  let builtins := sections.builtins.toArray
  { code := sections.code.toArray
    attributes := fun offset => attributes[offset]?.getD .empty
    functionAt := fun offset => starts[offset]?.bind fun index => functions[index]?.map (·.name)
    functionName := fun index => functions[index]?.map (·.name)
    string := fun index => strings[index]?
    identifier := fun index => identifiers[index]?
    builtinName := fun index => builtins[index]?
    raw := image.raw }

end Image

end ThreadedCode
