import ThreadedCode.Proofs.Canonical
import ThreadedCode.Proofs.ReaderSteps

/-!
# Reading is determined by the bytes read

Where stored values end is found while they are read, from the lengths in front of them. So what a
reader gives depends on the bytes that it takes and on none behind them. And it needs all of these
bytes before it can find anything else wrong with them: if only a part of them is there, reading
fails because the bytes end. Both are kept when readers are put together.
-/

namespace ThreadedCode

namespace Reader

variable {α β : Type}

/-- If only a part of the stored bytes is there, reading fails because it needs more of them. -/
def Starves (read : Reader α) (stored : Bytes) : Prop :=
  ∀ (count : Nat) (tail : Tail), count < stored.length →
    read ⟨stored.take count, tail⟩ = .error tail.shortage

/-- Reading gives its value for the bytes that it takes, whatever follows them, and needs them
all. -/
def Exact (read : Reader α) : Prop :=
  read.Consumes fun stored value => read.Takes stored value ∧ read.Starves stored

/-- A part of the bytes of two steps is too short for the first step, or leaves a part of its bytes
to the second. -/
theorem Starves.bind {read : Reader α} {next : α → Reader β} {front back : Bytes} {value : α}
    (first : read.Starves front) (taken : read.Takes front value)
    (second : (next value).Starves back) : (read >>= next).Starves (front ++ back) := by
  intro count tail short
  by_cases inside : count < front.length
  · rw [List.take_append_of_le_length (Nat.le_of_lt inside)]
    change Except.bind (read ⟨front.take count, tail⟩) _ = _
    rw [first count tail inside]
    rfl
  · have split : (front ++ back).take count = front ++ back.take (count - front.length) := by
      rw [List.take_append, List.take_of_length_le (Nat.le_of_not_lt inside)]
    rw [split, taken.continues]
    apply second
    rw [List.length_append] at short
    omega

theorem Exact.pure (value : α) : (Pure.pure value : Reader α).Exact := by
  apply (Consumes.pure value).imp
  rintro stored result ⟨rfl, rfl⟩
  exact ⟨Takes.pure _, fun _ _ short => absurd short (Nat.not_lt_zero _)⟩

theorem Exact.fail (error : ReadError) : (Reader.fail error : Reader α).Exact :=
  fun _ _ _ impossible => nomatch impossible

theorem Exact.bind {read : Reader α} {next : α → Reader β} (first : read.Exact)
    (second : ∀ value, (next value).Exact) : (read >>= next).Exact := by
  apply (Consumes.bind first second).imp
  rintro stored result ⟨value, front, back, rfl, ⟨taken, starves⟩, continued, starvesBack⟩
  exact ⟨taken.bind continued, starves.bind taken starvesBack⟩

theorem take_exact (count : Nat) : (take count).Exact := by
  apply (take_consumes count).imp
  rintro stored value ⟨rfl, rfl⟩
  refine ⟨take_takes stored, ?_⟩
  intro shorter tail short
  have lacking : ((stored.take shorter).take stored.length).length ≠ stored.length := by
    simp only [List.length_take]
    omega
  simp only [take, if_neg lacking]

/-- A reader that takes its bytes in steps needs those that it takes and no others. -/
theorem Stepwise.exact {read : Reader α} (steps : read.Stepwise) : read.Exact := by
  induction steps with
  | pure value => exact .pure value
  | refuse _ => exact .fail _
  | take count => exact take_exact count
  | bind _ _ first second => exact first.bind second

end Reader

theorem Sections.codec_exact : codec.read.Exact := codec_stepwise.exact

/-- The sections that are read are determined by the bytes up to where reading stopped. All bytes
that begin with these give the same sections and leave what follows. If fewer of them are there,
reading fails because the bytes end. -/
theorem sections_determined_by_prefix {bytes : Bytes} {sections : Sections} {rest : Source}
    (read : Sections.codec.read ⟨bytes, .ends⟩ = .ok (sections, rest)) :
    ∃ count ≤ bytes.length, rest = ⟨bytes.drop count, .ends⟩ ∧
      (∀ other : Bytes, other.take count = bytes.take count →
        Sections.codec.read ⟨other, .ends⟩ = .ok (sections, ⟨other.drop count, .ends⟩)) ∧
      ∀ shorter < count,
        Sections.codec.read ⟨bytes.take shorter, .ends⟩ = .error .unexpectedEnd := by
  obtain ⟨stored, split, taken, starves⟩ := Sections.codec_exact _ sections rest read
  obtain ⟨behind, tail⟩ := rest
  cases split
  refine ⟨stored.length, by simp, by simp, ?_, ?_⟩
  · intro other same
    rw [List.take_left] at same
    have whole : stored ++ other.drop stored.length = other := by
      calc
        stored ++ other.drop stored.length
            = other.take stored.length ++ other.drop stored.length := by rw [same]
        _ = other := List.take_append_drop _ _
    have again := taken (other.drop stored.length) .ends
    rwa [whole] at again
  · intro shorter short
    rw [List.take_append_of_le_length (Nat.le_of_lt short)]
    exact starves shorter .ends short

/-- The file stores its sections in 48 bytes. -/
theorem sections_determined_by_prefix_looseFile :
    Sections.codec.read ⟨looseFile, .ends⟩ = .ok (looseSections, ⟨[9], .ends⟩) ∧
      Sections.codec.read ⟨looseFile.take 48 ++ [1, 2], .ends⟩ =
        .ok (looseSections, ⟨[1, 2], .ends⟩) ∧
      ∀ shorter < 48,
        Sections.codec.read ⟨looseFile.take shorter, .ends⟩ = .error .unexpectedEnd := by
  obtain ⟨count, fits, left, same, short⟩ := sections_determined_by_prefix looseFile_read
  have length : looseFile.length = 49 := rfl
  have stopped : count = 48 := by
    have behind := congrArg (fun source => source.bytes.length) left
    simp only [List.length_singleton, List.length_drop] at behind
    omega
  rw [stopped] at same short
  exact ⟨looseFile_read, same _ rfl, short⟩

end ThreadedCode
