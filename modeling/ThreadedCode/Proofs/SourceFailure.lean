import ThreadedCode.Proofs.ReaderSteps

/-!
# The end of a source and its failure

A source that has no more bytes may have ended or failed. A reader finds out only by asking for a
byte that is not there. So whatever it reads or refuses before does not depend on it, and when it
lacks bytes the error says what has happened to the source, as far as the kind of a failure lets it.
This carries over to a sequence of values that are read from one source.
-/

namespace ThreadedCode

namespace Reader

variable {α β : Type}

/-- What comes of reading the bytes, whatever the source does behind them. -/
inductive Finding (read : Reader α) (bytes : Bytes) : Prop
  | value (value : α) (left : Bytes)
      (gives : ∀ tail, read ⟨bytes, tail⟩ = .ok (value, ⟨left, tail⟩))
  | refusal (error : ReadError) (apart : ∀ tail : Tail, error ≠ tail.shortage)
      (refuses : ∀ tail, read ⟨bytes, tail⟩ = .error error)
  | lack (lacks : ∀ tail, read ⟨bytes, tail⟩ = .error tail.shortage)

theorem finding_take (count : Nat) (bytes : Bytes) : (take count).Finding bytes := by
  by_cases enough : (bytes.take count).length = count
  · apply Finding.value (bytes.take count) (bytes.drop count)
    intro tail
    exact if_pos enough
  · apply Finding.lack
    intro tail
    exact if_neg enough

theorem Finding.bind {read : Reader α} {next : α → Reader β} {bytes : Bytes}
    (first : read.Finding bytes) (second : ∀ value left, (next value).Finding left) :
    (read >>= next).Finding bytes := by
  have continued (tail : Tail) : (read >>= next) ⟨bytes, tail⟩ =
      Except.bind (read ⟨bytes, tail⟩) fun result => next result.1 result.2 := rfl
  cases first with
  | value value left gives =>
      have onward (tail : Tail) : (read >>= next) ⟨bytes, tail⟩ = next value ⟨left, tail⟩ := by
        rw [continued, gives]
        rfl
      cases second value left with
      | value result rest givesMore =>
          exact .value result rest fun tail => (onward tail).trans (givesMore tail)
      | refusal error apart refuses =>
          exact .refusal error apart fun tail => (onward tail).trans (refuses tail)
      | lack lacks => exact .lack fun tail => (onward tail).trans (lacks tail)
  | refusal error apart refuses =>
      apply Finding.refusal error apart
      intro tail
      rw [continued, refuses]
      rfl
  | lack lacks =>
      apply Finding.lack
      intro tail
      rw [continued, lacks]
      rfl

/-- What comes of reading in steps does not depend on what the source does behind its bytes. -/
theorem Stepwise.finding {read : Reader α} (steps : read.Stepwise) (bytes : Bytes) :
    read.Finding bytes := by
  induction steps generalizing bytes with
  | pure value => exact .value value bytes fun _ => rfl
  | refuse apart => exact .refusal _ apart fun _ => rfl
  | take count => exact finding_take count bytes
  | bind _ _ first second => exact (first bytes).bind second

end Reader

/-- The error for a source that fails where it would have ended. -/
def ReadError.whenFailing (kind : FailureKind) : ReadError → ReadError
  | .unexpectedEnd => kind.error
  | error => error

theorem ReadError.whenFailing_of_ne (kind : FailureKind) {error : ReadError}
    (apart : error ≠ .unexpectedEnd) : error.whenFailing kind = error := by
  cases error with
  | unexpectedEnd => exact absurd rfl apart
  | badMagic _ | unsupportedVersion _ | invalidUtf8 _ | sourceFailed => rfl

/-- The source that fails behind its bytes. -/
def Source.failing (kind : FailureKind) (source : Source) : Source :=
  { source with tail := .fails kind }

namespace Reading

variable {kind : FieldKind} {source after : Source} {rest : List FieldKind}

theorem sequence_of_ok {value : kind.Value} (found : kind.codec.read source = .ok (value, after)) :
    sequence (kind :: rest) source =
      ⟨⟨kind, value, after.bytes⟩ :: (sequence rest after).emitted,
        (sequence rest after).outcome⟩ := by
  rw [sequence, found]
  rfl

theorem sequence_of_error {error : ReadError} (failed : kind.codec.read source = .error error) :
    sequence (kind :: rest) source = ⟨[], .error error⟩ := by
  rw [sequence, failed]
  rfl

end Reading

/-- A sequence of values is read from a source that fails behind its bytes as from one that ends
there, with the same bytes left after each value. The value that cannot be read is the same one, and
the error is the same, except where it is the end of the bytes. There it is the failure of the
source, unless the source calls its failure an end of file. -/
theorem sequence_tells_end_from_failure (kinds : List FieldKind) (bytes : Bytes)
    (kind : FailureKind) :
    let plain := Reading.sequence kinds ⟨bytes, .ends⟩
    let failing := Reading.sequence kinds ⟨bytes, .fails kind⟩
    failing.emitted = plain.emitted ∧
    failing.outcome =
      (plain.outcome.map (Source.failing kind)).mapError (ReadError.whenFailing kind) ∧
    (failing.outcome = .error .sourceFailed ↔
      plain.outcome = .error .unexpectedEnd ∧ kind ≠ .endOfFile) ∧
    (failing.outcome = .error .unexpectedEnd ↔
      plain.outcome = .error .unexpectedEnd ∧ kind = .endOfFile) ∧
    plain.outcome ≠ .error .sourceFailed := by
  induction kinds generalizing bytes with
  | nil => exact ⟨rfl, rfl, ⟨nofun, nofun⟩, ⟨nofun, nofun⟩, nofun⟩
  | cons field rest ih =>
      cases field.codec_stepwise.finding bytes with
      | value value left gives =>
          obtain ⟨emitted, outcome, apart⟩ := ih left
          rw [Reading.sequence_of_ok (gives .ends), Reading.sequence_of_ok (gives (.fails kind))]
          exact ⟨congrArg (_ :: ·) emitted, outcome, apart⟩
      | refusal error apart refuses =>
          rw [Reading.sequence_of_error (refuses .ends),
            Reading.sequence_of_error (refuses (.fails kind))]
          have noEnd : (.error error : Except ReadError Source) ≠ .error .unexpectedEnd :=
            fun same => apart .ends (Except.error.inj same)
          have noFailure : (.error error : Except ReadError Source) ≠ .error .sourceFailed :=
            fun same => apart (.fails .other) (Except.error.inj same)
          refine ⟨rfl, ?_, iff_of_false noFailure (fun ends => noEnd ends.1),
            iff_of_false noEnd (fun ends => noEnd ends.1), noFailure⟩
          exact congrArg Except.error (ReadError.whenFailing_of_ne kind (apart .ends)).symm
      | lack lacks =>
          rw [Reading.sequence_of_error (lacks .ends),
            Reading.sequence_of_error (lacks (.fails kind))]
          cases kind with
          | endOfFile =>
              exact ⟨rfl, rfl, ⟨nofun, fun fails => absurd rfl fails.2⟩,
                ⟨fun _ => ⟨rfl, rfl⟩, fun _ => rfl⟩, nofun⟩
          | other =>
              exact ⟨rfl, rfl, ⟨fun _ => ⟨rfl, nofun⟩, fun _ => rfl⟩, ⟨nofun, nofun⟩, nofun⟩

/-- A source that fails with an end of file where a number is to be read has just ended, as far as
the error tells. -/
theorem sequence_takes_failure_for_end :
    Reading.sequence [.unsigned] ⟨[], .fails .endOfFile⟩ = ⟨[], .error .unexpectedEnd⟩ ∧
      Reading.sequence [.unsigned] ⟨[], .ends⟩ = ⟨[], .error .unexpectedEnd⟩ :=
  ⟨rfl, rfl⟩

end ThreadedCode
