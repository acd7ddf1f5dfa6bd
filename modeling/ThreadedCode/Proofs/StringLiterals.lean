import ThreadedCode.Proofs.Notes

/-!
# What a string literal stands for

A reader of C++ string literals takes one element after the other, a character or an escape, until
the closing quote. It stands on its own and knows nothing of how literals are spelled here. What is
read back from the literal of a text is the UTF-8 encoding of the text, whatever follows the
literal.

## Implementation notes

An octal escape takes as many digits as it finds, up to three. So the value of an escape of fewer
digits depends on the character behind it, and that each spelling is read as its own bytes in front
of any characters is the fact that carries over to the spelling of a whole text.
-/

namespace ThreadedCode

namespace Literal

/-- The byte that a simple escape stands for. -/
def simpleEscape? : Char → Option UInt8
  | '\'' => some 0x27
  | '"' => some 0x22
  | '?' => some 0x3F
  | '\\' => some 0x5C
  | 'a' => some 0x07
  | 'b' => some 0x08
  | 'f' => some 0x0C
  | 'n' => some 0x0A
  | 'r' => some 0x0D
  | 't' => some 0x09
  | 'v' => some 0x0B
  | _ => none

/-- Is the character an octal digit? -/
def isOctalDigit (char : Char) : Bool := '0'.toNat ≤ char.toNat && char.toNat ≤ '7'.toNat

/-- The digits of an octal escape: as many as there are, up to three. -/
def octalDigits (chars : List Char) : List Char := (chars.take 3).takeWhile isOctalDigit

/-- What the escape stands for whose backslash is in front of the characters, and what is behind
it. -/
def escape? (chars : List Char) : Option (UInt8 × List Char) :=
  match octalDigits chars with
  | [] =>
    match chars with
    | [] => none
    | char :: rest => (simpleEscape? char).map (·, rest)
  | digits =>
    let value := Nat.ofDigitChars 8 digits 0
    if value < 0x100 then some (UInt8.ofNat value, chars.drop digits.length) else none

/-- What the first element of a literal stands for, and what is behind it. -/
def element? : List Char → Option (Bytes × List Char)
  | [] => none
  | '"' :: _ => none
  | '\n' :: _ => none
  | '\\' :: rest => (escape? rest).map fun (byte, behind) => ([byte], behind)
  | char :: rest => some (String.utf8EncodeChar char, rest)

theorem length_of_escape? {chars rest : List Char} {byte : UInt8}
    (found : escape? chars = some (byte, rest)) : rest.length ≤ chars.length := by
  unfold escape? at found
  split at found
  · cases chars with
    | nil => cases found
    | cons char others =>
        obtain ⟨value, -, same⟩ := Option.map_eq_some_iff.mp found
        cases same
        exact Nat.le_succ _
  · dsimp only at found
    split at found
    · cases found
      simp
    · cases found

theorem length_of_element? {chars rest : List Char} {bytes : Bytes}
    (found : element? chars = some (bytes, rest)) : rest.length < chars.length := by
  unfold element? at found
  split at found
  case h_4 others =>
    obtain ⟨⟨byte, behind⟩, escaped, same⟩ := Option.map_eq_some_iff.mp found
    cases same
    exact Nat.lt_succ_of_le (length_of_escape? escaped)
  case h_5 =>
    cases found
    exact Nat.lt_succ_self _
  all_goals cases found

/-- The value of a literal from behind its opening quote on, and what is behind its closing
quote. -/
def content? (chars : List Char) : Option (Bytes × List Char) :=
  if chars.head? = some '"' then some ([], chars.tail)
  else
    match _found : element? chars with
    | none => none
    | some (bytes, rest) => (content? rest).map fun (more, behind) => (bytes ++ more, behind)
termination_by chars.length
decreasing_by exact length_of_element? (by assumption)

/-- The value of the literal that the characters begin with, and what is behind it. -/
def literal? : List Char → Option (Bytes × List Char)
  | '"' :: rest => content? rest
  | _ => none

/-- The places of the double quotes that no backslash escapes, the first character being at
`start`. -/
def unescapedQuotes : Nat → List Char → List Nat
  | _, [] => []
  | start, '\\' :: _ :: rest => unescapedQuotes (start + 2) rest
  | start, '"' :: rest => start :: unescapedQuotes (start + 1) rest
  | start, _ :: rest => unescapedQuotes (start + 1) rest

/-- A character of printable ASCII. -/
def Printable (char : Char) : Prop := 0x20 ≤ char.toNat ∧ char.toNat ≤ 0x7E

instance (char : Char) : Decidable (Printable char) := inferInstanceAs (Decidable (_ ∧ _))

/-- The characters are a part of a literal that stands for the bytes, whatever follows. -/
structure Spells (chars : List Char) (bytes : Bytes) : Prop where
  printable : ∀ char ∈ chars, Printable char
  quoteless : ∀ start rest,
    unescapedQuotes start (chars ++ rest) = unescapedQuotes (start + chars.length) rest
  denotes : ∀ rest,
    content? (chars ++ rest) = (content? rest).map fun (more, behind) => (bytes ++ more, behind)

theorem content?_of_element? {chars rest : List Char} {bytes : Bytes}
    (found : element? chars = some (bytes, rest)) :
    content? chars = (content? rest).map fun (more, behind) => (bytes ++ more, behind) := by
  have inside : chars.head? ≠ some '"' := by
    intro closing
    obtain ⟨tail, rfl⟩ := List.head?_eq_some_iff.mp closing
    cases found
  rw [content?, if_neg inside]
  split
  case h_1 missing => rw [found] at missing; cases missing
  case h_2 first behind same =>
    rw [found] at same
    cases same
    rfl

theorem content?_quote (rest : List Char) : content? ('"' :: rest) = some ([], rest) := by
  rw [content?, List.head?_cons, if_pos rfl, List.tail_cons]

namespace Spells

theorem nil : Spells [] [] where
  printable := nofun
  quoteless _ _ := rfl
  denotes rest := by simp

theorem append {chars more : List Char} {bytes others : Bytes} (first : Spells chars bytes)
    (second : Spells more others) : Spells (chars ++ more) (bytes ++ others) where
  printable := by
    intro char found
    exact (List.mem_append.mp found).elim (first.printable char) (second.printable char)
  quoteless := by
    intro start rest
    rw [List.append_assoc, first.quoteless, second.quoteless, List.length_append, Nat.add_assoc]
  denotes := by
    intro rest
    rw [List.append_assoc, first.denotes, second.denotes, Option.map_map]
    congr 1
    funext ⟨tail, behind⟩
    simp

theorem flatMap {bytes : Bytes} {word : UInt8 → List Char}
    (spelled : ∀ byte, Spells (word byte) [byte]) : Spells (bytes.flatMap word) bytes := by
  induction bytes with
  | nil => exact nil
  | cons byte rest ih => exact (spelled byte).append ih

/-- A printable character that is no quote and no backslash stands for itself. -/
theorem plain {char : Char} (printable : Printable char) (noQuote : char ≠ '"')
    (noBackslash : char ≠ '\\') : Spells [char] (String.utf8EncodeChar char) where
  printable := by simpa using printable
  quoteless := by
    intro start rest
    rw [List.singleton_append, unescapedQuotes]
    · rfl
    · exact fun _ _ backslash _ => noBackslash backslash
    · exact noQuote
  denotes := by
    intro rest
    apply content?_of_element?
    have noLineEnd : char ≠ '\n' := by
      rintro rfl
      exact absurd printable (by decide)
    rw [List.singleton_append, element?]
    · exact noQuote
    · exact noLineEnd
    · exact noBackslash

/-- A simple escape stands for its byte. -/
theorem simple {char : Char} {byte : UInt8} (printable : Printable char)
    (noDigit : isOctalDigit char = false) (found : simpleEscape? char = some byte) :
    Spells ['\\', char] [byte] where
  printable := by
    have backslash : Printable '\\' := by decide
    simp [backslash, printable]
  quoteless _ _ := by simp [unescapedQuotes]
  denotes := by
    intro rest
    apply content?_of_element?
    have digits : octalDigits (char :: rest) = [] := by simp [octalDigits, noDigit]
    simp [element?, escape?, digits, found]

end Spells

theorem isOctalDigit_octalDigit (number : Nat) : isOctalDigit (octalDigit number) = true := by
  simp only [isOctalDigit, toNat_octalDigit, Bool.and_eq_true, decide_eq_true_eq]
  constructor
  · exact Nat.le_add_right _ _
  · have below : number % 8 < 8 := Nat.mod_lt _ (by decide)
    exact Nat.add_le_add_left (Nat.le_of_lt_succ below) 48

theorem printable_octalDigit (number : Nat) : Printable (octalDigit number) := by
  rw [Printable, toNat_octalDigit]
  omega

theorem octalDigit_ne {char : Char} (noDigit : isOctalDigit char = false) (number : Nat) :
    octalDigit number ≠ char := by
  rintro rfl
  rw [isOctalDigit_octalDigit] at noDigit
  cases noDigit

/-- Three octal digits give a byte back. -/
theorem ofDigitChars_octal (byte : UInt8) :
    Nat.ofDigitChars 8
      [octalDigit (byte.toNat / 64), octalDigit (byte.toNat / 8), octalDigit byte.toNat] 0 =
      byte.toNat := by
  have below : byte.toNat < 256 := byte.toNat_lt
  have zero : '0'.toNat = 48 := rfl
  simp only [Nat.ofDigitChars_cons, Nat.ofDigitChars_nil, toNat_octalDigit, zero]
  omega

/-- The digits of an octal escape are its three, also when another digit follows. -/
theorem element?_octalEscape (byte : UInt8) (rest : List Char) :
    element? (octalEscape byte ++ rest) = some ([byte], rest) := by
  have digits : ∀ first second third : Nat,
      octalDigits (octalDigit first :: octalDigit second :: octalDigit third :: rest) =
        [octalDigit first, octalDigit second, octalDigit third] := by
    intro first second third
    simp [octalDigits, isOctalDigit_octalDigit]
  have below : byte.toNat < 256 := byte.toNat_lt
  simp [octalEscape, element?, escape?, digits, ofDigitChars_octal, below]

example : element? "\\0571".toList = some ([0x2F], ['1']) := by decide

theorem spells_octalEscape (byte : UInt8) : Spells (octalEscape byte) [byte] where
  printable := by
    have backslash : Printable '\\' := by decide
    simp [octalEscape, backslash, printable_octalDigit]
  quoteless := by
    intro start rest
    have noQuote : ∀ number, octalDigit number ≠ '"' := octalDigit_ne rfl
    have noBackslash : ∀ number, octalDigit number ≠ '\\' := octalDigit_ne rfl
    simp [octalEscape, unescapedQuotes, noQuote, noBackslash]
  denotes rest := content?_of_element? (element?_octalEscape byte rest)

/-- The spelling of a character stands for its encoding. -/
theorem spells_spell (afterStar : Bool) (char : Char) :
    Spells (spell afterStar char) (String.utf8EncodeChar char) := by
  unfold spell
  split
  case h_7 =>
    split
    · exact spells_octalEscape 0x2F
    · exact .plain (by decide) (by decide) (by decide)
  case h_8 noBackslash _ noQuote _ =>
    split
    case isTrue printable => exact .plain printable noQuote noBackslash
    case isFalse => exact .flatMap spells_octalEscape
  all_goals exact .simple (by decide) rfl rfl

theorem spells_spellAll (afterStar : Bool) (chars : List Char) :
    Spells (spellAll afterStar chars) (chars.flatMap String.utf8EncodeChar) := by
  induction chars generalizing afterStar with
  | nil => exact .nil
  | cons char rest ih => exact (spells_spell afterStar char).append (ih _)

end Literal

theorem Utf8.encode_eq_flatMap (text : String) :
    encode text = text.toList.flatMap String.utf8EncodeChar := by
  rw [encode, ← String.utf8Encode_toList, List.utf8Encode, List.toList_data_toByteArray]

theorem Lexer.StaysOpen.no_end_inside {chars : List Char} (stays : StaysOpen chars) :
    ¬ ['*', '/'] <:+: chars := by
  induction stays with
  | nil => exact fun found => nomatch List.infix_nil.mp found
  | @cons char rest plain stays ih =>
      intro found
      rcases List.infix_cons_iff.mp found with front | inside
      · obtain ⟨star, slash⟩ := List.cons_prefix_cons.mp front
        obtain ⟨tail, rfl⟩ := slash
        exact plain star.symm rfl
      · exact ih inside

/-- The literal of a text is printable, ends no comment and is a single literal, closed by its last
character only. Its value is the encoding of the text, whatever follows it. -/
theorem quote_stands_for_text (text : String) :
    (∀ char ∈ (Literal.quote text).toList, Literal.Printable char) ∧
      ¬ "*/".toList <:+: (Literal.quote text).toList ∧
      Literal.unescapedQuotes 0 (Literal.quote text).toList =
        [0, (Literal.quote text).toList.length - 1] ∧
      ∀ rest, Literal.literal? ((Literal.quote text).toList ++ rest) =
        some (Utf8.encode text, rest) := by
  have spelled := Literal.spells_spellAll false text.toList
  have chars : (Literal.quote text).toList =
      '"' :: (Literal.spellAll false text.toList ++ ['"']) := by
    rw [Literal.quote, String.toList_ofList, List.cons_append]
  refine ⟨?_, (Literal.staysOpen_quote text).no_end_inside, ?_, ?_⟩
  · have quote : Literal.Printable '"' := by decide
    simpa [chars, quote, or_imp, forall_and] using spelled.printable
  · rw [chars, Literal.unescapedQuotes, spelled.quoteless]
    simp [Literal.unescapedQuotes, Nat.add_comm]
  · intro rest
    rw [chars, List.cons_append, List.append_assoc, Literal.literal?, spelled.denotes,
      List.singleton_append, Literal.content?_quote, Utf8.encode_eq_flatMap]
    simp

end ThreadedCode
