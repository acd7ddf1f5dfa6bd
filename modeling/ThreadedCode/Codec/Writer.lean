import ThreadedCode.Sink
import ThreadedCode.Text.Utf8
import ThreadedCode.Trace

/-!
# Writing bytes

A writer puts bytes into a sink of limited room. Once the sink fails, nothing more is written, and
what it took before stays in it.
-/

namespace ThreadedCode

/-- Why a value could not be written. -/
inductive WriteError where
  /-- The sink takes no more bytes. -/
  | sinkFull
  deriving DecidableEq, Repr

/-- A computation that puts bytes into a sink. -/
abbrev Writer (α : Type) := StateT Room (Trace UInt8 WriteError) α

namespace Writer

/-- Puts bytes into the sink. If it fails, the bytes that still fit are in it. -/
def put (bytes : Bytes) : Writer Unit := fun room =>
  match room.fill bytes with
  | (taken, some left) => ⟨taken, .ok ((), left)⟩
  | (taken, none) => ⟨taken, .error .sinkFull⟩

/-- Writes values one after the other. -/
def each {α : Type} (write : α → Writer Unit) : List α → Writer Unit
  | [] => pure ()
  | value :: rest => do
    write value
    each write rest

end Writer

end ThreadedCode
