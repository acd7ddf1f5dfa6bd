import ThreadedCode.Image.Sections

/-!
# Kinds of stored values

The kinds of values that bytecode files are made of. Each kind has its values and its codec, so
that a sequence of values of various kinds can be written and read back.
-/

namespace ThreadedCode

/-- A kind of stored value. -/
inductive FieldKind where
  | unsigned
  | word
  | bytes
  | text
  | function
  | list (element : FieldKind)
  | sections
  deriving DecidableEq, Repr

namespace FieldKind

/-- The values of a kind. -/
@[reducible] def Value : FieldKind → Type
  | .unsigned => UInt32
  | .word => Word
  | .bytes => Bytes
  | .text => String
  | .function => FunctionEntry
  | .list element => List element.Value
  | .sections => Sections

/-- How the values of a kind are stored. -/
def codec : (kind : FieldKind) → Codec kind.Value
  | .unsigned => Codec.unsigned
  | .word => Codec.word
  | .bytes => Codec.padded
  | .text => Codec.text
  | .function => FunctionEntry.codec
  | .list element => Codec.list element.codec
  | .sections => Sections.codec

end FieldKind

/-- A value that was read, and the bytes left behind it. -/
structure Reading where
  kind : FieldKind
  value : kind.Value
  left : Bytes

/-- Reads values of the given kinds one after the other, up to the first that cannot be read. -/
def Reading.sequence : List FieldKind → Source → Trace Reading ReadError Source
  | [], source => pure source
  | kind :: rest, source => do
    let (value, source) ← Trace.ofExcept (kind.codec.read source)
    Trace.emit ⟨kind, value, source.bytes⟩
    sequence rest source

end ThreadedCode
