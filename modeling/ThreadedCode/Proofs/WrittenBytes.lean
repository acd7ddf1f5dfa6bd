import ThreadedCode.Image.Field
import ThreadedCode.Proofs.LimitedRoom

/-!
# Values written into a full sink

A value is written in many steps, for its lengths, its content, its padding and its parts. All of
them together put the bytes into the sink that the value is stored as, in order. So a sink that
fails somewhere in between holds the first of these bytes, as many as it has room for, and no step
is taken after the one that failed.
-/

namespace ThreadedCode

namespace Writer

/-- Writing puts the bytes into the sink, as far as there is room for them. -/
def Puts (write : Writer Unit) (stored : Bytes) : Prop :=
  ∀ room, Trace.Fills id .sinkFull room stored (write room) fun left => .ok ((), left)

theorem puts_put (bytes : Bytes) : (put bytes).Puts bytes := by
  intro room
  unfold put
  split <;> rename_i filled <;> constructor <;> rw [filled] <;> rfl

theorem puts_pure : (pure () : Writer Unit).Puts [] := fun room =>
  .nothing rfl room fun left => .ok ((), left)

theorem Puts.bind {write next : Writer Unit} {stored more : Bytes}
    (first : write.Puts stored) (second : next.Puts more) :
    Puts (do write; next) (stored ++ more) := fun room =>
  (first room).bind (fun _ _ => rfl) second

theorem puts_each {α : Type} {write : α → Writer Unit} {encode : α → Bytes}
    (puts : ∀ value, (write value).Puts (encode value)) (values : List α) :
    (each write values).Puts (values.flatMap encode) := by
  induction values with
  | nil => exact puts_pure
  | cons value rest ih => exact (puts value).bind ih

end Writer

namespace Codec

open Writer

/-- The codec writes the bytes that it stores a value as. -/
def Writes {α : Type} (codec : Codec α) : Prop :=
  ∀ value, (codec.write value).Puts (codec.encode value)

theorem unsigned_writes : unsigned.Writes := fun _ => puts_put _

theorem word_writes : word.Writes := fun _ => puts_put _

theorem puts_writeLength (length : Nat) : (writeLength length).Puts (encodeLength length) :=
  unsigned_writes _

theorem padded_writes : padded.Writes := by
  intro content
  have zeros := puts_each (fun byte => puts_put [byte])
    (List.replicate (LittleEndian.padding content.length) 0)
  rw [List.flatMap_singleton'] at zeros
  have whole := (puts_writeLength content.length).bind ((puts_put content).bind zeros)
  rw [← List.append_assoc] at whole
  exact whole

theorem text_writes : text.Writes := fun _ => padded_writes _

theorem list_writes {α : Type} {element : Codec α} (writes : element.Writes) :
    (list element).Writes := fun values =>
  (puts_writeLength values.length).bind (puts_each writes values)

end Codec

open Codec

theorem FunctionEntry.codec_writes : codec.Writes := fun entry =>
  (word_writes entry.start).bind (text_writes entry.name)

theorem Attributes.listCodec_writes : listCodec.Writes := fun _ => padded_writes _

theorem Sections.codec_writes : codec.Writes := by
  intro sections
  have whole := (Writer.puts_put magic).bind ((unsigned_writes version).bind
    ((list_writes word_writes sections.code).bind
    ((Attributes.listCodec_writes sections.attributes).bind
    ((list_writes FunctionEntry.codec_writes sections.functions).bind
    ((list_writes text_writes sections.strings).bind
    ((list_writes text_writes sections.identifiers).bind
    (list_writes text_writes sections.builtins)))))))
  simp only [← List.append_assoc] at whole
  exact whole

/-- The codec of every kind writes the bytes that it stores a value as. -/
theorem FieldKind.codec_writes (kind : FieldKind) : kind.codec.Writes := by
  induction kind with
  | unsigned => exact unsigned_writes
  | word => exact word_writes
  | bytes => exact padded_writes
  | text => exact text_writes
  | function => exact FunctionEntry.codec_writes
  | list element ih => exact list_writes ih
  | sections => exact Sections.codec_writes

/-- A value of any kind is written as the bytes that it is stored as. Of these a sink of limited
room holds as many as it has room for, from the first one on. Writing fails exactly if there are
more, and otherwise it takes up as much room as there are bytes. -/
theorem writing_fills_sink (kind : FieldKind) (value : kind.Value) :
    let stored := kind.codec.encode value
    (kind.codec.write value .unlimited).emitted = stored ∧
    (kind.codec.write value .unlimited).outcome = .ok ((), .unlimited) ∧
    ∀ limit : Nat,
      let written := kind.codec.write value ⟨some limit⟩
      written.emitted = stored.take (min limit stored.length) ∧
      (written.outcome = .error .sinkFull ↔ limit < stored.length) ∧
      (written.outcome = .ok ((), ⟨some (limit - stored.length)⟩) ↔ stored.length ≤ limit) := by
  have puts := kind.codec_writes value
  obtain ⟨whole, ended⟩ := (puts .unlimited).unlimited
  refine ⟨whole, ended, fun limit => ?_⟩
  have fills := puts ⟨some limit⟩
  exact ⟨fills.emitted_limited, fills.full_iff nofun, fills.onward_iff nofun⟩

end ThreadedCode
