import ThreadedCode.Image.Sections

/-!
# Programs

A compiled program, seen through its lookups. Only the instruction stream, the attributes and the
stored bytes are meant to decide what the generated code does. The names are there for its readers,
except that one built-in is recognised by its name.
-/

namespace ThreadedCode

/-- A compiled program. -/
structure Program where
  /-- The instruction stream. -/
  code : Array Word
  /-- What the compiler recorded about an offset. -/
  attributes : Nat → Attributes
  /-- Name of the function that starts at an offset. -/
  functionAt : Nat → Option String
  /-- Name of the function with an index. -/
  functionName : Nat → Option String
  /-- String literal with an index. -/
  string : Nat → Option String
  /-- Variable name with an index. -/
  identifier : Nat → Option String
  /-- Name of the built-in function with an index. -/
  builtinName : Nat → Option String
  /-- The bytes the program was stored as. -/
  raw : Bytes

namespace Program

/-- Does a block start at the offset? -/
def startsBlock (program : Program) (offset : Nat) : Bool := (program.attributes offset).split

/-- A program without names. Blocks start where `splits` says. -/
def bare (code : Array Word) (splits : Nat → Bool) (raw : Bytes) : Program where
  code
  attributes offset := ⟨splits offset⟩
  functionAt _ := none
  functionName _ := none
  string _ := none
  identifier _ := none
  builtinName _ := none
  raw

end Program

end ThreadedCode
