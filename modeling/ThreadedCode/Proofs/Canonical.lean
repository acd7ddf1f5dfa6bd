import ThreadedCode.Proofs.Decoding
import ThreadedCode.Proofs.RoundTrip

/-!
# The canonical form of stored values

Reading accepts more than writing gives: padding may hold anything, and of an attribute byte only
the lowest bit counts. Every other byte is determined by the value that was read. So writing a value
that was read gives the bytes it was read from in canonical form, with each byte in its role.
-/

namespace ThreadedCode

/-- What a stored byte is there for. -/
inductive ByteRole where
  /-- It is part of a number, a length or a text. -/
  | content
  /-- Its lowest bit is an attribute. -/
  | attribute
  /-- It fills up a word. -/
  | padding
  deriving DecidableEq, Repr

namespace ByteRole

/-- The byte that is written in the place of a byte with the given role. -/
def canonical : ByteRole → UInt8 → UInt8
  | .content, byte => byte
  | .attribute, byte => byte &&& 1
  | .padding, _ => 0

end ByteRole

/-- The bytes in canonical form, given the role of each. -/
def canonicalBytes (roles : List ByteRole) (stored : Bytes) : Bytes :=
  List.zipWith ByteRole.canonical roles stored

/-- Each stored byte has a role, and the written bytes are their canonical form. -/
structure Canonises (roles : List ByteRole) (stored written : Bytes) : Prop where
  length : stored.length = roles.length
  canonical : written = canonicalBytes roles stored

namespace Canonises

theorem nil : Canonises [] [] [] := ⟨rfl, rfl⟩

theorem append {roles more : List ByteRole} {stored next written others : Bytes}
    (first : Canonises roles stored written) (second : Canonises more next others) :
    Canonises (roles ++ more) (stored ++ next) (written ++ others) := by
  constructor
  · rw [List.length_append, List.length_append, first.length, second.length]
  · rw [canonicalBytes, List.zipWith_append first.length.symm, first.canonical, second.canonical]
    rfl

/-- Bytes of one role. -/
theorem replicate (role : ByteRole) (stored : Bytes) :
    Canonises (List.replicate stored.length role) stored (stored.map role.canonical) := by
  constructor
  · rw [List.length_replicate]
  · rw [canonicalBytes]
    induction stored with
    | nil => rfl
    | cons byte rest ih => simp only [List.length_cons, List.replicate_succ, List.map_cons,
        List.zipWith_cons_cons, ih]

theorem content {stored : Bytes} {count : Nat} (length : stored.length = count) :
    Canonises (List.replicate count .content) stored stored := by
  have kept : stored.map ByteRole.content.canonical = stored := List.map_id stored
  have whole := replicate .content stored
  rwa [kept, length] at whole

theorem padding {stored : Bytes} {count : Nat} (length : stored.length = count) :
    Canonises (List.replicate count .padding) stored (List.replicate count 0) := by
  have zeros : stored.map ByteRole.padding.canonical = List.replicate stored.length 0 :=
    List.map_const' ..
  have whole := replicate .padding stored
  rwa [zeros, length] at whole

theorem written_length {roles : List ByteRole} {stored written : Bytes}
    (canonises : Canonises roles stored written) : written.length = stored.length := by
  rw [canonises.canonical, canonicalBytes, List.length_zipWith, canonises.length, Nat.min_self]

end Canonises

namespace Reader

variable {α β : Type}

/-- What is read stands in front of what is left, and is related to the bytes it was read from. -/
def Consumes (read : Reader α) (relation : Bytes → α → Prop) : Prop :=
  ∀ source value rest, read source = .ok (value, rest) →
    ∃ stored, source = ⟨stored ++ rest.bytes, rest.tail⟩ ∧ relation stored value

theorem Consumes.pure (value : α) :
    (Pure.pure value : Reader α).Consumes fun stored result => stored = [] ∧ result = value := by
  intro source result rest found
  cases found
  exact ⟨[], rfl, rfl, rfl⟩

theorem Consumes.imp {read : Reader α} {relation weaker : Bytes → α → Prop}
    (consumes : read.Consumes relation)
    (implies : ∀ stored value, relation stored value → weaker stored value) :
    read.Consumes weaker := by
  intro source value rest found
  obtain ⟨stored, split, related⟩ := consumes source value rest found
  exact ⟨stored, split, implies stored value related⟩

/-- Two steps consume the bytes of the first and then those of the second. -/
theorem Consumes.bind {read : Reader α} {next : α → Reader β} {relation : Bytes → α → Prop}
    {relations : α → Bytes → β → Prop} (first : read.Consumes relation)
    (second : ∀ value, (next value).Consumes (relations value)) :
    (read >>= next).Consumes fun stored result => ∃ value front back,
      stored = front ++ back ∧ relation front value ∧ relations value back result := by
  intro source result rest found
  obtain ⟨⟨value, middle⟩, read, continued⟩ := except_bind_eq_ok.mp found
  obtain ⟨front, split, related⟩ := first source value middle read
  obtain ⟨back, splitBack, relatedBack⟩ := second value middle result rest continued
  refine ⟨front ++ back, ?_, value, front, back, rfl, related, relatedBack⟩
  rw [split, splitBack, List.append_assoc]

theorem take_consumes (count : Nat) :
    (take count).Consumes fun stored value => stored = value ∧ stored.length = count := by
  intro source value rest found
  obtain ⟨bytes, tail⟩ := source
  simp only [take] at found
  split at found
  · rename_i enough
    cases found
    exact ⟨bytes.take count, by rw [List.take_append_drop], rfl, enough⟩
  · cases found

end Reader

namespace Codec

open Reader

/-- Everything that the codec reads can be stored, and writing it gives the canonical form of the
bytes it was read from. -/
def Restores {α : Type} (codec : Codec α) (fits : α → Prop) (roles : α → List ByteRole) : Prop :=
  codec.read.Consumes fun stored value =>
    fits value ∧ Canonises (roles value) stored (codec.encode value)

/-- Four bytes are the low bytes of the number that they spell. -/
theorem bytes_ofNat_value {stored : Bytes} (length : stored.length = 4) :
    LittleEndian.bytes 4 (UInt32.ofNat (LittleEndian.value stored)).toNat = stored := by
  have small := LittleEndian.value_lt stored
  rw [length] at small
  have whole : (UInt32.ofNat (LittleEndian.value stored)).toNat = LittleEndian.value stored :=
    UInt32.toNat_ofNat_of_lt small
  rw [whole, ← length]
  exact LittleEndian.bytes_value stored

theorem unsigned_consumes :
    unsigned.read.Consumes fun stored number =>
      stored.length = 4 ∧ unsigned.encode number = stored := by
  refine ((take_consumes 4).bind fun bytes => Consumes.pure _).imp ?_
  rintro stored number ⟨bytes, front, back, rfl, ⟨rfl, length⟩, rfl, rfl⟩
  rw [List.append_nil]
  exact ⟨length, bytes_ofNat_value length⟩

theorem word_restores : word.Restores (fun _ => True) fun _ => List.replicate 4 .content := by
  refine ((take_consumes 4).bind fun bytes => Consumes.pure _).imp ?_
  rintro stored content ⟨bytes, front, back, rfl, ⟨rfl, length⟩, rfl, rfl⟩
  rw [List.append_nil]
  have same : word.encode (LittleEndian.word front) = front := bytes_ofNat_value length
  rw [same]
  exact ⟨trivial, Canonises.content length⟩

/-- A length that was read can be stored. -/
theorem readLength_consumes :
    readLength.Consumes fun stored length =>
      length < lengthBound ∧
        Canonises (List.replicate 4 .content) stored (encodeLength length) := by
  refine (unsigned_consumes.bind fun number => Consumes.pure _).imp ?_
  rintro stored length ⟨number, front, back, rfl, ⟨size, rfl⟩, rfl, rfl⟩
  rw [List.append_nil, encodeLength, UInt32.ofNat_toNat]
  exact ⟨number.toNat_lt, Canonises.content size⟩

/-- The roles of a byte string with content of the given role. -/
def paddedRoles (role : ByteRole) (length : Nat) : List ByteRole :=
  List.replicate 4 .content ++ List.replicate length role
    ++ List.replicate (LittleEndian.padding length) .padding

/-- A byte string that was read is written with its content as the role says and zeros behind. -/
theorem padded_consumes (role : ByteRole) :
    padded.read.Consumes fun stored content =>
      content.length < lengthBound ∧
        Canonises (paddedRoles role content.length) stored
          (padded.encode (content.map role.canonical)) := by
  rw [padded_read]
  refine (readLength_consumes.bind fun length => (take_consumes length).bind fun content =>
    (take_consumes (LittleEndian.padding length)).bind fun _ => Consumes.pure content).imp ?_
  rintro stored content ⟨length, head, behind, rfl, ⟨small, counted⟩, bytes, front, others, rfl,
    ⟨rfl, rfl⟩, padding, filling, last, rfl, ⟨rfl, filled⟩, rfl, rfl⟩
  refine ⟨small, ?_⟩
  have whole := (counted.append (Canonises.replicate role content)).append
    (Canonises.padding filled)
  simpa [paddedRoles, padded] using whole

/-- The roles of a text. -/
def textRoles (content : String) : List ByteRole :=
  paddedRoles .content (Utf8.encode content).length

theorem text_restores : text.Restores FitsText textRoles := by
  intro source content rest found
  obtain ⟨⟨bytes, behind⟩, read, continued⟩ := except_bind_eq_ok.mp found
  obtain ⟨stored, split, small, canonises⟩ := padded_consumes .content source bytes behind read
  cases decoded : Utf8.decode? bytes with
  | none =>
      simp only [decoded] at continued
      cases continued
  | some text =>
      simp only [decoded] at continued
      cases continued
      have encoded := Utf8.encode_of_decode? decoded
      have kept : bytes.map ByteRole.content.canonical = bytes := List.map_id _
      rw [kept, ← encoded] at canonises
      rw [← encoded] at small
      exact ⟨stored, split, small, canonises⟩

section Lists

variable {α : Type} {element : Codec α} {fits : α → Prop} {roles : α → List ByteRole}

theorem times_consumes (restores : element.Restores fits roles) (count : Nat) :
    (times element.read count).Consumes fun stored values =>
      values.length = count ∧ (∀ value ∈ values, fits value) ∧
        Canonises (values.flatMap roles) stored (values.flatMap element.encode) := by
  induction count with
  | zero =>
      refine (Consumes.pure []).imp ?_
      rintro stored values ⟨rfl, rfl⟩
      exact ⟨rfl, nofun, Canonises.nil⟩
  | succ count ih =>
      refine (restores.bind fun first => ih.bind fun rest => Consumes.pure (first :: rest)).imp ?_
      rintro stored values ⟨first, front, -, rfl, ⟨firstFits, head⟩, rest, back, -, rfl,
        ⟨counted, restFits, others⟩, rfl, rfl⟩
      refine ⟨by rw [List.length_cons, counted], List.forall_mem_cons.mpr ⟨firstFits, restFits⟩, ?_⟩
      rw [List.flatMap_cons, List.flatMap_cons, List.append_nil]
      exact head.append others

/-- The roles of a list: those of its length, and of its elements in order. -/
def listRoles (roles : α → List ByteRole) (values : List α) : List ByteRole :=
  List.replicate 4 .content ++ values.flatMap roles

theorem list_restores (restores : element.Restores fits roles) :
    (list element).Restores (FitsList fits) (listRoles roles) := by
  refine (readLength_consumes.bind fun length => times_consumes restores length).imp ?_
  rintro stored values ⟨length, head, back, rfl, ⟨small, counted⟩, rfl, each, others⟩
  exact ⟨⟨small, each⟩, counted.append others⟩

end Lists

end Codec

open Reader Codec

/-- The roles of a function table entry. -/
def FunctionEntry.roles (entry : FunctionEntry) : List ByteRole :=
  List.replicate 4 .content ++ textRoles entry.name

theorem FunctionEntry.codec_restores :
    codec.Restores (fun entry => FitsText entry.name) FunctionEntry.roles := by
  refine (word_restores.bind fun start => text_restores.bind fun name =>
    Consumes.pure { start, name : FunctionEntry }).imp ?_
  rintro stored entry ⟨start, front, -, rfl, ⟨-, first⟩, name, back, -, rfl, ⟨fits, second⟩,
    rfl, rfl⟩
  rw [List.append_nil]
  exact ⟨fits, first.append second⟩

namespace Attributes

/-- Only the lowest bit of an attribute byte is stored again. -/
theorem bits_ofBits (byte : UInt8) : (ofBits byte).bits = ByteRole.attribute.canonical byte := by
  have low : (byte &&& 1).toNat = byte.toNat % 2 := by
    rw [UInt8.toNat_and]
    exact Nat.and_one_is_mod _
  rcases Nat.mod_two_eq_zero_or_one byte.toNat with even | odd
  · have clear : byte &&& 1 = 0 := UInt8.toNat.inj (low.trans even)
    simp [ofBits, bits, ByteRole.canonical, clear]
  · have set : byte &&& 1 = 1 := UInt8.toNat.inj (low.trans odd)
    simp [ofBits, bits, ByteRole.canonical, set]

/-- The roles of the attributes of a stream. -/
def roles (attributes : List Attributes) : List ByteRole :=
  paddedRoles .attribute attributes.length

theorem listCodec_restores :
    listCodec.Restores (fun attributes => attributes.length < lengthBound) roles := by
  refine ((padded_consumes .attribute).bind fun bytes =>
    Consumes.pure (bytes.map ofBits)).imp ?_
  rintro stored attributes ⟨bytes, front, back, rfl, ⟨small, canonises⟩, rfl, rfl⟩
  have same : (bytes.map ofBits).map Attributes.bits =
      bytes.map ByteRole.attribute.canonical := by
    rw [List.map_map]
    exact List.map_congr_left fun byte _ => bits_ofBits byte
  rw [← same, ← List.length_map ofBits] at canonises
  rw [← List.length_map ofBits] at small
  rw [List.append_nil]
  exact ⟨small, canonises⟩

end Attributes

namespace Sections

/-- The roles of the bytes of a file. Nothing but padding and attributes is stored loosely. -/
def roles (sections : Sections) : List ByteRole :=
  List.replicate 8 .content
    ++ listRoles (fun _ => List.replicate 4 .content) sections.code
    ++ Attributes.roles sections.attributes
    ++ listRoles FunctionEntry.roles sections.functions
    ++ listRoles textRoles sections.strings
    ++ listRoles textRoles sections.identifiers
    ++ listRoles textRoles sections.builtins

/-- There is only one header. -/
theorem readHeader_consumes :
    readHeader.Consumes fun stored _ => stored = magic ++ unsigned.encode version := by
  have checked : Consumes (unsigned.read >>= fun stored =>
      if stored = version then Pure.pure () else Reader.fail (.unsupportedVersion stored))
      fun stored _ => stored = unsigned.encode version := by
    intro source value rest found
    obtain ⟨⟨number, behind⟩, read, continued⟩ := except_bind_eq_ok.mp found
    obtain ⟨stored, split, -, encoded⟩ := unsigned_consumes source number behind read
    by_cases supported : number = version
    · simp only [supported, if_true] at continued
      cases continued
      exact ⟨stored, split, by rw [← encoded, supported]⟩
    · simp only [supported, if_false] at continued
      cases continued
  intro source value rest found
  obtain ⟨⟨start, behind⟩, read, continued⟩ := except_bind_eq_ok.mp found
  obtain ⟨front, split, rfl, -⟩ := take_consumes 4 source start behind read
  by_cases known : front = magic
  · simp only [known, if_true] at continued
    obtain ⟨back, splitBack, same⟩ := checked behind value rest continued
    refine ⟨front ++ back, ?_, by rw [known, same]⟩
    rw [split, splitBack, List.append_assoc]
  · simp only [known, if_false] at continued
    cases continued

theorem codec_restores : codec.Restores Sections.Fits roles := by
  refine (readHeader_consumes.bind fun _ => (list_restores word_restores).bind fun code =>
    Attributes.listCodec_restores.bind fun attributes =>
    (list_restores FunctionEntry.codec_restores).bind fun functions =>
    (list_restores text_restores).bind fun strings =>
    (list_restores text_restores).bind fun identifiers =>
    (list_restores text_restores).bind fun builtins =>
    Consumes.pure ({ code, attributes, functions, strings, identifiers, builtins } : Sections)).imp
      ?_
  rintro stored sections ⟨-, -, -, rfl, rfl, code, inCode, -, rfl, ⟨codeFits, codeForm⟩,
    attributes, inAttributes, -, rfl, ⟨attributesFit, attributesForm⟩,
    functions, inFunctions, -, rfl, ⟨functionsFit, functionsForm⟩,
    strings, inStrings, -, rfl, ⟨stringsFit, stringsForm⟩,
    identifiers, inIdentifiers, -, rfl, ⟨identifiersFit, identifiersForm⟩,
    builtins, inBuiltins, -, rfl, ⟨builtinsFit, builtinsForm⟩, rfl, rfl⟩
  have header : Canonises (List.replicate 8 .content) (magic ++ unsigned.encode version)
      (magic ++ unsigned.encode version) := Canonises.content rfl
  refine ⟨⟨codeFits.1, attributesFit, functionsFit, stringsFit, identifiersFit, builtinsFit⟩, ?_⟩
  have whole := (((((header.append codeForm).append attributesForm).append functionsForm).append
    stringsForm).append identifiersForm).append builtinsForm
  simpa only [roles, codec, List.append_assoc, List.append_nil] using whole

/-- Reads a file and writes what was read. -/
def recode (bytes : Bytes) : Except ReadError Bytes :=
  (codec.read ⟨bytes, .ends⟩).map fun found => codec.encode found.1

end Sections

/-- Writing the sections that were read gives as many bytes as were consumed, namely the consumed
bytes in canonical form: padding is zero, of attribute bytes only the lowest bit is left, and all
others are the same. What is written is read as the same sections, so a second recoding changes
nothing. -/
theorem recoding_canonicalises :
    (∀ (source rest : Source) (sections : Sections),
      Sections.codec.read source = .ok (sections, rest) →
        ∃ consumed, source = ⟨consumed ++ rest.bytes, rest.tail⟩ ∧
          (Sections.codec.encode sections).length = consumed.length ∧
          sections.roles.length = consumed.length ∧
          Sections.codec.encode sections = canonicalBytes sections.roles consumed ∧
          ∀ more tail, Sections.codec.read ⟨Sections.codec.encode sections ++ more, tail⟩ =
            .ok (sections, ⟨more, tail⟩)) ∧
    ∀ bytes written, Sections.recode bytes = .ok written →
      Sections.recode written = .ok written := by
  constructor
  · intro source rest sections read
    obtain ⟨consumed, split, fits, canonises⟩ := Sections.codec_restores source sections rest read
    exact ⟨consumed, split, canonises.written_length, canonises.length.symm, canonises.canonical,
      Sections.codec_takes fits⟩
  · intro bytes written recoded
    obtain ⟨⟨found, behind⟩, read, rfl⟩ := except_map_eq_ok.mp recoded
    obtain ⟨-, -, fits, -⟩ := Sections.codec_restores _ found behind read
    have again := Sections.codec_takes fits [] .ends
    rw [List.append_nil] at again
    rw [Sections.recode, again]
    rfl

/-- A file with one word, attribute bytes and padding that hold all kinds of bits, a text of one
letter, and a byte behind its sections. -/
def looseFile : Bytes :=
  [0x4C, 0x42, 0x43, 0x46, 1, 0, 0, 0, 1, 0, 0, 0, 0xFE, 0xFF, 0xFF, 0xFF, 2, 0, 0, 0, 0xFF, 6, 7,
    8, 0, 0, 0, 0, 1, 0, 0, 0, 1, 0, 0, 0, 0x61, 3, 4, 5, 0, 0, 0, 0, 0, 0, 0, 0, 9]

/-- The sections of the file. -/
def looseSections : Sections :=
  { code := [-2], attributes := [⟨true⟩, ⟨false⟩], strings := ["a"] }

theorem looseFile_read :
    Sections.codec.read ⟨looseFile, .ends⟩ = .ok (looseSections, ⟨[9], .ends⟩) :=
  rfl

theorem recoding_canonicalises_looseFile :
    Sections.codec.read ⟨looseFile, .ends⟩ = .ok (looseSections, ⟨[9], .ends⟩) ∧
      (∃ consumed, (⟨looseFile, .ends⟩ : Source) = ⟨consumed ++ [9], .ends⟩ ∧
        (Sections.codec.encode looseSections).length = consumed.length ∧
        looseSections.roles.length = consumed.length ∧
        Sections.codec.encode looseSections = canonicalBytes looseSections.roles consumed ∧
        ∀ more tail, Sections.codec.read ⟨Sections.codec.encode looseSections ++ more, tail⟩ =
          .ok (looseSections, ⟨more, tail⟩)) ∧
      ∃ written, Sections.recode looseFile = .ok written ∧
        Sections.recode written = .ok written := by
  have recoded : Sections.recode looseFile = .ok (Sections.codec.encode looseSections) := by
    rw [Sections.recode, looseFile_read]
    rfl
  exact ⟨looseFile_read, recoding_canonicalises.1 _ _ _ looseFile_read, _, recoded,
    recoding_canonicalises.2 _ _ recoded⟩

end ThreadedCode
