import ThreadedCode.Text.Utf8

/-!
# Reading bytes

A reader takes bytes from the front of a source. When it needs more bytes than there are, the
source has either come to its normal end or failed. A failure has a kind, and the error tells it
from the end unless the source itself calls its failure an end of file. Needing no byte past the end
is no error.
-/

namespace ThreadedCode

/-- The kinds of failure that are told apart. A source that was interrupted is asked again, so an
interruption is no failure. -/
inductive FailureKind where
  /-- The source says that it came to an end of file too soon. -/
  | endOfFile
  /-- It says anything else. -/
  | other
  deriving DecidableEq, Repr

/-- What a source does once its bytes are used up. -/
inductive Tail where
  /-- It has come to its end. -/
  | ends
  /-- It fails to deliver. -/
  | fails (kind : FailureKind := .other)
  deriving DecidableEq, Repr

/-- Bytes to be read, and what comes after them. -/
structure Source where
  bytes : Bytes
  tail : Tail := .ends
  deriving DecidableEq, Repr

/-- Why bytes could not be read as a stored value. -/
inductive ReadError where
  /-- The file does not begin with the magic bytes. -/
  | badMagic (found : Bytes)
  /-- The file has a version that is not supported. -/
  | unsupportedVersion (version : UInt32)
  /-- The bytes end too soon. -/
  | unexpectedEnd
  /-- A stored text is not UTF-8. -/
  | invalidUtf8 (stored : Bytes)
  /-- The source failed. -/
  | sourceFailed
  deriving DecidableEq, Repr

/-- The error that a failure of the source is reported as. -/
def FailureKind.error : FailureKind → ReadError
  | .endOfFile => .unexpectedEnd
  | .other => .sourceFailed

/-- The error for a byte needed past the last one. -/
def Tail.shortage : Tail → ReadError
  | .ends => .unexpectedEnd
  | .fails kind => kind.error

/-- A computation that takes bytes from a source. -/
abbrev Reader (α : Type) := StateT Source (Except ReadError) α

namespace Reader

/-- Takes the given number of bytes. -/
def take (count : Nat) : Reader Bytes := fun source =>
  if (source.bytes.take count).length = count then
    .ok (source.bytes.take count, { source with bytes := source.bytes.drop count })
  else .error source.tail.shortage

/-- Takes up to the given number of bytes, and fewer if the source ends before. -/
def upTo (count : Nat) : Reader Bytes := fun source =>
  let found := (source.bytes.take count, { source with bytes := source.bytes.drop count })
  match source.tail with
  | .ends => .ok found
  | .fails kind =>
    if (source.bytes.take count).length < count then .error kind.error else .ok found

/-- Ends with an error. -/
def fail {α : Type} (error : ReadError) : Reader α := fun _ => .error error

/-- Reads a number of values one after the other. -/
def times {α : Type} (read : Reader α) : Nat → Reader (List α)
  | 0 => pure []
  | count + 1 => do
    let first ← read
    let rest ← times read count
    return first :: rest

/-- To take bytes as far as they go and to find that all are there is to take them all. -/
theorem upTo_checked {α : Type} (count : Nat) (next : Bytes → Reader α) :
    (do
      let content ← upTo count
      if content.length < count then fail .unexpectedEnd else next content) =
      take count >>= next := by
  funext ⟨bytes, tail⟩
  simp only [bind, StateT.bind, Except.bind, upTo, take]
  by_cases enough : (bytes.take count).length = count
  · cases tail with
    | ends | fails kind => simp only [enough, Nat.lt_irrefl, if_true, if_false]
  · have short : (bytes.take count).length < count :=
      Nat.lt_of_le_of_ne (List.length_take_le count bytes) enough
    cases tail with
    | ends | fails kind =>
        simp only [short, enough, if_true, if_false]
        rfl

end Reader

end ThreadedCode
