/-!
# Text as bytes

Text is stored as UTF-8. Bytes that are no text have a first fault: the longest start made of
whole characters, and then either a character that the bytes end in the middle of, or a short run
of bytes that begins no character.
-/

namespace ThreadedCode

/-- A string of bytes. -/
abbrev Bytes := List UInt8

namespace Utf8

/-- The bytes of a text. -/
def encode (text : String) : Bytes := text.toByteArray.data.toList

/-- The text that the bytes encode, if they encode one. -/
def decode? (bytes : Bytes) : Option String := String.fromUTF8? ⟨⟨bytes⟩⟩

/-- The first place at which bytes stop being text. -/
structure Fault where
  /-- Number of bytes before it, which are whole characters. -/
  validUpTo : Nat
  /-- Number of bytes there that begin no character, unless the bytes just end too soon. -/
  length? : Option Nat
  deriving DecidableEq, Repr

/-- A closed range of bytes. -/
structure ByteRange where
  low : UInt8
  high : UInt8

/-- Does the range hold the byte? -/
def ByteRange.contains (range : ByteRange) (byte : UInt8) : Bool :=
  range.low ≤ byte && byte ≤ range.high

/-- The bytes that continue a character in most places. -/
def continuation : ByteRange := ⟨0x80, 0xBF⟩

/-- The ranges of the bytes that must follow a leading byte. Some bytes lead no character. -/
def followers? (lead : UInt8) : Option (List ByteRange) :=
  if lead < 0x80 then some []
  else if lead < 0xC2 then none
  else if lead < 0xE0 then some [continuation]
  else if lead = 0xE0 then some [⟨0xA0, 0xBF⟩, continuation]
  else if lead = 0xED then some [⟨0x80, 0x9F⟩, continuation]
  else if lead < 0xF0 then some [continuation, continuation]
  else if lead = 0xF0 then some [⟨0x90, 0xBF⟩, continuation, continuation]
  else if lead < 0xF4 then some [continuation, continuation, continuation]
  else if lead = 0xF4 then some [⟨0x80, 0x8F⟩, continuation, continuation]
  else none

/-- The first fault from a character on that starts at `start`, of which `matched` bytes are
behind and the bytes of `pending` are still to come. -/
def faultFrom (start matched : Nat) : List ByteRange → Bytes → Fault
  | _, [] => ⟨start, none⟩
  | [], lead :: rest =>
    match followers? lead with
    | none => ⟨start, some 1⟩
    | some [] => faultFrom (start + 1) 0 [] rest
    | some pending => faultFrom start 1 pending rest
  | range :: pending, byte :: rest =>
    if range.contains byte then
      match pending with
      | [] => faultFrom (start + matched + 1) 0 [] rest
      | _ => faultFrom start (matched + 1) pending rest
    else ⟨start, some matched⟩

/-- The first fault of the bytes. Bytes that are text have it at their end. -/
def fault (bytes : Bytes) : Fault := faultFrom 0 0 [] bytes

namespace Fault

/-- What is wrong with the bytes. -/
def message (fault : Fault) : String :=
  match fault.length? with
  | some length =>
    "invalid utf-8 sequence of " ++ toString length ++ " bytes from index "
      ++ toString fault.validUpTo
  | none => "incomplete utf-8 byte sequence from index " ++ toString fault.validUpTo

end Fault

@[simp] theorem decode?_encode (text : String) : decode? (encode text) = some text := by
  unfold decode? encode String.fromUTF8?
  exact dif_pos text.isValidUTF8

theorem encode_of_decode? {bytes : Bytes} {text : String} (found : decode? bytes = some text) :
    encode text = bytes := by
  unfold decode? String.fromUTF8? at found
  split at found
  · cases found
    rfl
  · cases found

end Utf8

end ThreadedCode
