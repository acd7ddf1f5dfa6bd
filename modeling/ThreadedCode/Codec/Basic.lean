import ThreadedCode.Codec.LittleEndian
import ThreadedCode.Codec.Reader
import ThreadedCode.Codec.Writer

/-!
# Stored values

A codec says as which bytes a value is stored, how it is written into a sink and how it is read
back. Numbers are four bytes, low byte first. A byte string has its length in front and zeros behind
it up to the next word. A list has its length in front.
-/

namespace ThreadedCode

/-- How values of a type are stored and read back. -/
structure Codec (α : Type) where
  encode : α → Bytes
  write : α → Writer Unit
  read : Reader α

namespace Codec

/-- Unsigned numbers. -/
def unsigned : Codec UInt32 where
  encode number := LittleEndian.bytes 4 number.toNat
  write number := Writer.put (LittleEndian.bytes 4 number.toNat)
  read := do
    let stored ← Reader.take 4
    return UInt32.ofNat (LittleEndian.value stored)

/-- Words of the instruction stream. -/
def word : Codec Word where
  encode word := LittleEndian.bytes 4 word.toUInt32.toNat
  write word := Writer.put (LittleEndian.bytes 4 word.toUInt32.toNat)
  read := do
    let stored ← Reader.take 4
    return LittleEndian.word stored

/-- The length in front of a stored value. -/
def encodeLength (length : Nat) : Bytes := unsigned.encode (UInt32.ofNat length)

/-- Writes the length in front of a stored value. -/
def writeLength (length : Nat) : Writer Unit := unsigned.write (UInt32.ofNat length)

/-- Reads the length in front of a stored value. -/
def readLength : Reader Nat := do
  let length ← unsigned.read
  return length.toNat

/-- Byte strings. Their padding is written byte by byte, and what it holds is not looked at when
it is read. A length that was read is not trusted: the bytes that are there are taken first. -/
def padded : Codec Bytes where
  encode content :=
    encodeLength content.length ++ content
      ++ List.replicate (LittleEndian.padding content.length) 0
  write content := do
    writeLength content.length
    Writer.put content
    Writer.each (fun byte => Writer.put [byte])
      (List.replicate (LittleEndian.padding content.length) 0)
  read := do
    let length ← readLength
    let content ← Reader.upTo length
    if content.length < length then Reader.fail .unexpectedEnd
    else do
      let _ ← Reader.take (LittleEndian.padding length)
      return content

theorem padded_read :
    padded.read = (do
      let length ← readLength
      let content ← Reader.take length
      let _ ← Reader.take (LittleEndian.padding length)
      return content) := by
  simp only [padded, Reader.upTo_checked]

/-- Texts, stored as the byte strings of their UTF-8 form. -/
def text : Codec String where
  encode text := padded.encode (Utf8.encode text)
  write text := padded.write (Utf8.encode text)
  read := do
    let stored ← padded.read
    match Utf8.decode? stored with
    | some text => return text
    | none => Reader.fail (.invalidUtf8 stored)

/-- Lists of stored values. -/
def list {α : Type} (element : Codec α) : Codec (List α) where
  encode values := encodeLength values.length ++ values.flatMap element.encode
  write values := do
    writeLength values.length
    Writer.each element.write values
  read := do
    let length ← readLength
    Reader.times element.read length

end Codec

end ThreadedCode
