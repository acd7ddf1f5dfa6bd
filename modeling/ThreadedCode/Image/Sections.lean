import ThreadedCode.Codec.Basic

/-!
# The sections of a bytecode file

Everything a bytecode file stores, how it is stored, and how block starts are marked in it.
-/

namespace ThreadedCode

/-- What the compiler recorded about an offset of the instruction stream. -/
structure Attributes where
  /-- Does a block start here? -/
  split : Bool
  deriving DecidableEq, Repr

namespace Attributes

/-- Nothing recorded. -/
def empty : Attributes := ⟨false⟩

/-- The stored byte. -/
def bits (attributes : Attributes) : UInt8 := if attributes.split then 1 else 0

/-- The attributes in a stored byte, whose other bits mean nothing. -/
def ofBits (bits : UInt8) : Attributes := ⟨bits &&& 1 = 1⟩

@[simp] theorem ofBits_bits (attributes : Attributes) : ofBits attributes.bits = attributes := by
  obtain ⟨split⟩ := attributes
  cases split <;> rfl

end Attributes

/-- An entry of the function table. -/
structure FunctionEntry where
  /-- Offset of the function in the instruction stream. -/
  start : Word
  name : String
  deriving DecidableEq, Repr

/-- The sections of a bytecode file. -/
structure Sections where
  /-- The instruction stream. -/
  code : List Word := []
  /-- Attributes by offset. Offsets past the end of the list have none. -/
  attributes : List Attributes := []
  /-- The function table. -/
  functions : List FunctionEntry := []
  /-- String literals by index. -/
  strings : List String := []
  /-- Variable names by index. -/
  identifiers : List String := []
  /-- Built-in function names by index. -/
  builtins : List String := []
  deriving DecidableEq, Repr

namespace FunctionEntry

/-- A function table entry is stored as its start followed by its name. -/
def codec : Codec FunctionEntry where
  encode entry := Codec.word.encode entry.start ++ Codec.text.encode entry.name
  write entry := do
    Codec.word.write entry.start
    Codec.text.write entry.name
  read := do
    let start ← Codec.word.read
    let name ← Codec.text.read
    return { start, name }

end FunctionEntry

namespace Attributes

/-- Attributes are stored as a byte string. -/
def listCodec : Codec (List Attributes) where
  encode attributes := Codec.padded.encode (attributes.map bits)
  write attributes := Codec.padded.write (attributes.map bits)
  read := do
    let stored ← Codec.padded.read
    return stored.map ofBits

end Attributes

namespace Sections

/-- The first four bytes of every bytecode file. -/
def magic : Bytes := [0x4C, 0x42, 0x43, 0x46]

/-- The one supported version of the file format. -/
def version : UInt32 := 1

/-- Reads the magic bytes and the version, which must be the expected ones. -/
def readHeader : Reader Unit := do
  let found ← Reader.take 4
  if found = magic then
    let stored ← Codec.unsigned.read
    if stored = version then return () else Reader.fail (.unsupportedVersion stored)
  else Reader.fail (.badMagic found)

/-- A bytecode file is the magic bytes, the version, and the sections in order. -/
def codec : Codec Sections where
  encode sections :=
    magic ++ Codec.unsigned.encode version
      ++ (Codec.list Codec.word).encode sections.code
      ++ Attributes.listCodec.encode sections.attributes
      ++ (Codec.list FunctionEntry.codec).encode sections.functions
      ++ (Codec.list Codec.text).encode sections.strings
      ++ (Codec.list Codec.text).encode sections.identifiers
      ++ (Codec.list Codec.text).encode sections.builtins
  write sections := do
    Writer.put magic
    Codec.unsigned.write version
    (Codec.list Codec.word).write sections.code
    Attributes.listCodec.write sections.attributes
    (Codec.list FunctionEntry.codec).write sections.functions
    (Codec.list Codec.text).write sections.strings
    (Codec.list Codec.text).write sections.identifiers
    (Codec.list Codec.text).write sections.builtins
  read := do
    readHeader
    let code ← (Codec.list Codec.word).read
    let attributes ← Attributes.listCodec.read
    let functions ← (Codec.list FunctionEntry.codec).read
    let strings ← (Codec.list Codec.text).read
    let identifiers ← (Codec.list Codec.text).read
    let builtins ← (Codec.list Codec.text).read
    return { code, attributes, functions, strings, identifiers, builtins }

/-- Marks a block start, after growing the attributes up to it if need be. -/
def markSplit (attributes : List Attributes) (offset : Nat) : List Attributes :=
  let grown := attributes ++ List.replicate (offset + 1 - attributes.length) Attributes.empty
  grown.set offset ⟨true⟩

/-- Marks block starts at the given offsets. -/
def splitAt (sections : Sections) (offsets : List Nat) : Sections :=
  { sections with attributes := offsets.foldl markSplit sections.attributes }

end Sections

end ThreadedCode
