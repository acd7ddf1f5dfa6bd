import Mathlib.Algebra.Group.Nat.Defs
import ThreadedCode.Image.Basic
import ThreadedCode.Image.Field
import ThreadedCode.SourceUnit

/-!
# Reading stored values back

Every codec reads exactly the bytes that it writes. The statement is about bytes in front of any
others, so that it composes along the fields of a record and the elements of a list. Lengths are
stored in 32 bits, and a value with a longer part is not stored faithfully.
-/

namespace ThreadedCode

namespace LittleEndian

@[simp] theorem value_bytes (width number : Nat) :
    value (bytes width number) = number % 256 ^ width := by
  induction width generalizing number with
  | zero => simp [bytes, value, Nat.mod_one]
  | succ width ih =>
      rw [bytes, value, ih, UInt8.toNat_ofNat', Nat.pow_succ 256, Nat.mul_comm (256 ^ width),
        Nat.mod_mul]

theorem value_lt (stored : Bytes) : value stored < 256 ^ stored.length := by
  induction stored with
  | nil => simp [value]
  | cons byte rest ih =>
      have := byte.toNat_lt
      simp only [value, List.length_cons, Nat.pow_succ]
      omega

end LittleEndian

namespace Reader

variable {α β : Type}

/-- Reading takes exactly the stored bytes and gives the value, whatever follows the bytes. -/
def Takes (read : Reader α) (stored : Bytes) (value : α) : Prop :=
  ∀ (rest : Bytes) (tail : Tail), read ⟨stored ++ rest, tail⟩ = .ok (value, ⟨rest, tail⟩)

theorem Takes.pure (value : α) : Takes (Pure.pure value) [] value := fun _ _ => rfl

/-- After the stored bytes the reading goes on with the value. -/
theorem Takes.continues {read : Reader α} {stored : Bytes} {value : α}
    (taken : read.Takes stored value) (next : α → Reader β) (rest : Bytes) (tail : Tail) :
    (read >>= next) ⟨stored ++ rest, tail⟩ = next value ⟨rest, tail⟩ := by
  change Except.bind (read ⟨stored ++ rest, tail⟩) _ = _
  rw [taken rest tail]
  rfl

theorem Takes.bind {read : Reader α} {next : α → Reader β} {first second : Bytes} {value : α}
    {result : β} (taken : read.Takes first value) (continued : (next value).Takes second result) :
    (read >>= next).Takes (first ++ second) result := by
  intro rest tail
  rw [List.append_assoc, taken.continues]
  exact continued rest tail

/-- A last step that only changes the value takes no bytes. -/
theorem Takes.map {read : Reader α} {stored : Bytes} {value : α} (taken : read.Takes stored value)
    (f : α → β) : (read >>= fun found => Pure.pure (f found)).Takes stored (f value) := by
  have whole : (read >>= fun found => Pure.pure (f found)).Takes (stored ++ []) (f value) :=
    taken.bind (Takes.pure (f value))
  rwa [List.append_nil] at whole

theorem take_takes (stored : Bytes) : (take stored.length).Takes stored stored := by
  intro rest tail
  simp [take]

theorem times_takes {read : Reader α} {encode : α → Bytes} (values : List α)
    (each : ∀ value ∈ values, read.Takes (encode value) value) :
    (times read values.length).Takes (values.flatMap encode) values := by
  induction values with
  | nil => exact Takes.pure []
  | cons value rest ih =>
      have head := each value List.mem_cons_self
      have others := ih fun later member => each later (List.mem_cons_of_mem value member)
      exact head.bind (others.map (value :: ·))

end Reader

namespace Codec

open Reader

/-- One past the largest length that can be stored. -/
def lengthBound : Nat := 2 ^ 32

theorem unsigned_takes (number : UInt32) :
    unsigned.read.Takes (unsigned.encode number) number := by
  have stored := (take_takes (unsigned.encode number)).map
    fun bytes => UInt32.ofNat (LittleEndian.value bytes)
  have same : UInt32.ofNat (LittleEndian.value (unsigned.encode number)) = number := by
    apply UInt32.toNat.inj
    have small := number.toNat_lt
    simp only [unsigned, LittleEndian.value_bytes, UInt32.toNat_ofNat']
    omega
  rw [same] at stored
  exact stored

theorem word_takes (content : Word) : word.read.Takes (word.encode content) content := by
  have stored := (take_takes (word.encode content)).map LittleEndian.word
  have same : LittleEndian.word (word.encode content) = content := by
    have small := content.toUInt32.toNat_lt
    have whole : content.toUInt32.toNat % 256 ^ 4 = content.toUInt32.toNat :=
      Nat.mod_eq_of_lt small
    simp only [LittleEndian.word, word, LittleEndian.value_bytes, whole, UInt32.ofNat_toNat]
    rfl
  rw [same] at stored
  exact stored

theorem readLength_takes {length : Nat} (small : length < lengthBound) :
    readLength.Takes (encodeLength length) length := by
  have stored := (unsigned_takes (UInt32.ofNat length)).map UInt32.toNat
  have same : (UInt32.ofNat length).toNat = length := UInt32.toNat_ofNat_of_lt small
  rw [same] at stored
  exact stored

theorem padded_takes {content : Bytes} (small : content.length < lengthBound) :
    padded.read.Takes (padded.encode content) content := by
  have zeros := take_takes (List.replicate (LittleEndian.padding content.length) 0)
  rw [List.length_replicate] at zeros
  have whole : padded.read.Takes (encodeLength content.length ++ (content
      ++ List.replicate (LittleEndian.padding content.length) 0)) content := by
    rw [padded_read]
    exact (readLength_takes small).bind ((take_takes content).bind (zeros.map fun _ => content))
  rw [← List.append_assoc] at whole
  exact whole

theorem text_takes {content : String} (small : (Utf8.encode content).length < lengthBound) :
    text.read.Takes (text.encode content) content := by
  intro rest tail
  simp only [text]
  rw [(padded_takes small).continues, Utf8.decode?_encode]
  rfl

theorem list_takes {α : Type} {element : Codec α} {values : List α}
    (small : values.length < lengthBound)
    (each : ∀ value ∈ values, element.read.Takes (element.encode value) value) :
    (list element).read.Takes ((list element).encode values) values :=
  (readLength_takes small).bind (times_takes values each)

end Codec

open Codec

/-- The text is short enough to be stored. -/
def FitsText (content : String) : Prop := (Utf8.encode content).length < lengthBound

instance (content : String) : Decidable (FitsText content) := inferInstanceAs (Decidable (_ < _))

/-- There are few enough values to be stored, and each of them can be stored. -/
def FitsList {α : Type} (fits : α → Prop) (values : List α) : Prop :=
  values.length < lengthBound ∧ ∀ value ∈ values, fits value

instance {α : Type} (fits : α → Prop) [DecidablePred fits] (values : List α) :
    Decidable (FitsList fits values) := inferInstanceAs (Decidable (_ ∧ _))

/-- All parts of the sections are short enough to be stored. -/
structure Sections.Fits (sections : Sections) : Prop where
  code : sections.code.length < lengthBound
  attributes : sections.attributes.length < lengthBound
  functions : FitsList (fun entry : FunctionEntry => FitsText entry.name) sections.functions
  strings : FitsList FitsText sections.strings
  identifiers : FitsList FitsText sections.identifiers
  builtins : FitsList FitsText sections.builtins

instance (sections : Sections) : Decidable sections.Fits :=
  decidable_of_iff
    (sections.code.length < lengthBound ∧ sections.attributes.length < lengthBound ∧
      FitsList (fun entry : FunctionEntry => FitsText entry.name) sections.functions ∧
      FitsList FitsText sections.strings ∧ FitsList FitsText sections.identifiers ∧
      FitsList FitsText sections.builtins)
    ⟨fun ⟨code, attributes, functions, strings, identifiers, builtins⟩ =>
        ⟨code, attributes, functions, strings, identifiers, builtins⟩,
      fun fits => ⟨fits.code, fits.attributes, fits.functions, fits.strings, fits.identifiers,
        fits.builtins⟩⟩

/-- All lengths in a value of the kind can be stored. -/
def FieldKind.Fits : (kind : FieldKind) → kind.Value → Prop
  | .unsigned, _ | .word, _ => True
  | .bytes, content => content.length < lengthBound
  | .text, content => FitsText content
  | .function, entry => FitsText entry.name
  | .list element, values => FitsList element.Fits values
  | .sections, stored => Sections.Fits stored

instance FieldKind.decidableFits : (kind : FieldKind) → DecidablePred kind.Fits
  | .unsigned | .word => fun _ => inferInstanceAs (Decidable True)
  | .bytes => fun _ => inferInstanceAs (Decidable (_ < _))
  | .text => fun _ => inferInstanceAs (Decidable (FitsText _))
  | .function => fun _ => inferInstanceAs (Decidable (FitsText _))
  | .list element =>
    have := decidableFits element
    fun _ => inferInstanceAs (Decidable (FitsList _ _))
  | .sections => fun _ => inferInstanceAs (Decidable (Sections.Fits _))

theorem FunctionEntry.codec_takes {entry : FunctionEntry} (fits : FitsText entry.name) :
    codec.read.Takes (codec.encode entry) entry :=
  (word_takes entry.start).bind
    ((text_takes fits).map fun name => { start := entry.start, name : FunctionEntry })

theorem Attributes.listCodec_takes {attributes : List Attributes}
    (small : attributes.length < lengthBound) :
    listCodec.read.Takes (listCodec.encode attributes) attributes := by
  have bits : (attributes.map Attributes.bits).length < lengthBound := by
    rwa [List.length_map]
  have stored := (padded_takes bits).map (List.map ofBits)
  have same : (attributes.map Attributes.bits).map ofBits = attributes := by
    rw [List.map_map]
    exact List.map_id'' Attributes.ofBits_bits attributes
  rw [same] at stored
  exact stored

namespace Sections

theorem readHeader_takes : readHeader.Takes (magic ++ unsigned.encode version) () := by
  have versionRead : (unsigned.read >>= fun stored =>
      if stored = version then Pure.pure ()
      else Reader.fail (.unsupportedVersion stored)).Takes
        (unsigned.encode version ++ []) () :=
    (unsigned_takes version).bind (Reader.Takes.pure ())
  rw [List.append_nil] at versionRead
  exact (Reader.take_takes magic).bind versionRead

/-- The sections are read one after the other, each up to the byte where it was written to. -/
theorem codec_takes {sections : Sections} (fits : sections.Fits) :
    codec.read.Takes (codec.encode sections) sections := by
  have code := list_takes fits.code fun content _ => word_takes content
  have attributes := Attributes.listCodec_takes fits.attributes
  have functions := list_takes fits.functions.1
    fun entry member => FunctionEntry.codec_takes (fits.functions.2 entry member)
  have strings := list_takes fits.strings.1
    fun content member => text_takes (fits.strings.2 content member)
  have identifiers := list_takes fits.identifiers.1
    fun content member => text_takes (fits.identifiers.2 content member)
  have builtins := list_takes fits.builtins.1
    fun content member => text_takes (fits.builtins.2 content member)
  intro rest tail
  simp only [codec, List.append_assoc]
  rw [← List.append_assoc magic, readHeader_takes.continues, code.continues,
    attributes.continues, functions.continues, strings.continues, identifiers.continues,
    builtins.continues]
  rfl

end Sections

/-- The codec of every kind reads back exactly what it wrote. -/
theorem FieldKind.codec_takes (kind : FieldKind) {value : kind.Value} (fits : kind.Fits value) :
    kind.codec.read.Takes (kind.codec.encode value) value := by
  induction kind with
  | unsigned => exact unsigned_takes value
  | word => exact word_takes value
  | bytes => exact padded_takes fits
  | text => exact text_takes fits
  | function => exact FunctionEntry.codec_takes fits
  | list element ih => exact list_takes fits.1 fun part member => ih (fits.2 part member)
  | sections => exact Sections.codec_takes fits

/-- Reading a file that was made from sections gives that same file, with nothing left over. -/
theorem Image.parse_ofSections {sections : Sections} (fits : sections.Fits) :
    Image.parse (Image.ofSections sections).raw = ⟨[], .ok (Image.ofSections sections)⟩ := by
  have read := Sections.codec_takes fits [] .ends
  rw [List.append_nil] at read
  simp only [Image.parse, Image.ofSections, Trace.ofExcept, read]
  rfl

/-- Stored values of every kind are read back up to the byte where they end, and a file that was
made from sections and read back is the same program. -/
theorem stored_values_read_back :
    (∀ (kind : FieldKind) (value : kind.Value), kind.Fits value →
      ∀ (rest : Bytes) (tail : Tail),
        kind.codec.read ⟨kind.codec.encode value ++ rest, tail⟩ = .ok (value, ⟨rest, tail⟩)) ∧
    ∀ sections : Sections, sections.Fits →
      ∃ image : Image, (Image.parse (Image.ofSections sections).raw).outcome = .ok image ∧
        image.program = (Image.ofSections sections).program ∧
        ∀ settings : Settings, compile settings image.program =
          compile settings (Image.ofSections sections).program := by
  constructor
  · intro kind value fits rest tail
    exact kind.codec_takes fits rest tail
  · intro sections fits
    refine ⟨Image.ofSections sections, ?_, rfl, fun _ => rfl⟩
    rw [Image.parse_ofSections fits]

/-- Nested lists of texts of every padding, with bytes after them, and a file with all its
sections in use. -/
theorem stored_values_read_back_nested :
    (FieldKind.Fits (.list (.list .text)) [["", "a", "π"], [], ["four"]] ∧
      ∀ (rest : Bytes) (tail : Tail),
        (FieldKind.codec (.list (.list .text))).read
            ⟨(FieldKind.codec (.list (.list .text))).encode [["", "a", "π"], [], ["four"]] ++ rest,
              tail⟩ =
          .ok ([["", "a", "π"], [], ["four"]], ⟨rest, tail⟩)) ∧
    let sections : Sections :=
      { code := [90, 2, -1, 98], attributes := [⟨false⟩, ⟨false⟩, ⟨true⟩]
        functions := [⟨-1, "main"⟩], strings := ["hi"], identifiers := ["x"], builtins := ["é"] }
    sections.Fits ∧
      ∃ image : Image, (Image.parse (Image.ofSections sections).raw).outcome = .ok image ∧
        image.program = (Image.ofSections sections).program ∧
        ∀ settings : Settings, compile settings image.program =
          compile settings (Image.ofSections sections).program := by
  refine ⟨⟨by decide, ?_⟩, by decide, ?_⟩
  · exact stored_values_read_back.1 (.list (.list .text)) _ (by decide)
  · exact stored_values_read_back.2 _ (by decide)

end ThreadedCode
