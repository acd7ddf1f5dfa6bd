import ThreadedCode.Image.Field

/-!
# Readers are made of steps

Every reader of stored values takes bytes in steps, each of which asks for a number of bytes that is
known by then, and it may refuse what it has taken. It has no other way to fail for want of bytes
than to ask for more than there are. What holds of the steps and is kept when readers are put
together holds of the readers of all kinds.
-/

namespace ThreadedCode

namespace Reader

/-- The reader is put together from steps that take bytes or refuse the bytes taken. -/
inductive Stepwise : {α : Type} → Reader α → Prop
  | pure {α : Type} (value : α) : Stepwise (Pure.pure value)
  | refuse {α : Type} {error : ReadError} (apart : ∀ tail : Tail, error ≠ tail.shortage) :
      Stepwise (fail error : Reader α)
  | take (count : Nat) : Stepwise (take count)
  | bind {α β : Type} {read : Reader α} {next : α → Reader β} (first : Stepwise read)
      (second : ∀ value, Stepwise (next value)) : Stepwise (read >>= next)

/-- Lacking bytes is reported as their end or as a failure. -/
theorem ne_shortage {error : ReadError} (noEnd : error ≠ .unexpectedEnd)
    (noFailure : error ≠ .sourceFailed) (tail : Tail) : error ≠ tail.shortage := by
  cases tail with
  | ends => exact noEnd
  | fails kind =>
      cases kind with
      | endOfFile => exact noEnd
      | other => exact noFailure

theorem times_stepwise {α : Type} {read : Reader α} (steps : read.Stepwise) (count : Nat) :
    (times read count).Stepwise := by
  induction count with
  | zero => exact .pure []
  | succ count ih =>
      apply steps.bind
      intro first
      apply ih.bind
      intro rest
      exact .pure (first :: rest)

end Reader

namespace Codec

open Reader

theorem unsigned_stepwise : unsigned.read.Stepwise := (Stepwise.take 4).bind fun _ => .pure _

theorem word_stepwise : word.read.Stepwise := (Stepwise.take 4).bind fun _ => .pure _

theorem readLength_stepwise : readLength.Stepwise := unsigned_stepwise.bind fun _ => .pure _

theorem padded_stepwise : padded.read.Stepwise := by
  rw [padded_read]
  apply readLength_stepwise.bind
  intro length
  apply (Stepwise.take length).bind
  intro content
  exact (Stepwise.take _).bind fun _ => .pure content

/-- Whether the bytes are a text is looked at when their padding was read. -/
theorem text_stepwise : text.read.Stepwise := by
  apply padded_stepwise.bind
  intro stored
  split
  · exact .pure _
  · exact .refuse (ne_shortage nofun nofun)

theorem list_stepwise {α : Type} {element : Codec α} (steps : element.read.Stepwise) :
    (list element).read.Stepwise :=
  readLength_stepwise.bind fun length => times_stepwise steps length

end Codec

open Codec

theorem FunctionEntry.codec_stepwise : codec.read.Stepwise := by
  apply word_stepwise.bind
  intro start
  exact text_stepwise.bind fun name => .pure _

theorem Attributes.listCodec_stepwise : listCodec.read.Stepwise :=
  padded_stepwise.bind fun _ => .pure _

namespace Sections

theorem readHeader_stepwise : readHeader.Stepwise := by
  apply (Reader.Stepwise.take 4).bind
  intro found
  split
  · apply unsigned_stepwise.bind
    intro stored
    split
    · exact .pure ()
    · exact .refuse (Reader.ne_shortage nofun nofun)
  · exact .refuse (Reader.ne_shortage nofun nofun)

theorem codec_stepwise : codec.read.Stepwise := by
  apply readHeader_stepwise.bind
  intro _
  apply (list_stepwise word_stepwise).bind
  intro code
  apply Attributes.listCodec_stepwise.bind
  intro attributes
  apply (list_stepwise FunctionEntry.codec_stepwise).bind
  intro functions
  apply (list_stepwise text_stepwise).bind
  intro strings
  apply (list_stepwise text_stepwise).bind
  intro identifiers
  apply (list_stepwise text_stepwise).bind
  intro builtins
  exact .pure _

end Sections

/-- The values of every kind are read in steps. -/
theorem FieldKind.codec_stepwise (kind : FieldKind) : kind.codec.read.Stepwise := by
  induction kind with
  | unsigned => exact unsigned_stepwise
  | word => exact word_stepwise
  | bytes => exact padded_stepwise
  | text => exact text_stepwise
  | function => exact FunctionEntry.codec_stepwise
  | list element ih => exact list_stepwise ih
  | sections => exact Sections.codec_stepwise

end ThreadedCode
