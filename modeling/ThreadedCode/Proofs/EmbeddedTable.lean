import Std.Data.String.ToInt
import ThreadedCode.Image.Basic
import ThreadedCode.Proofs.Canonical
import ThreadedCode.Proofs.Lexing

/-!
# The embedded table

The bytes that a program is stored as are embedded in its unit as a table of decimal integers. The
integers that are read between the braces of the table are the words of the bytes, however wide its
rows are. The words spell the bytes again, with zeros behind them up to the next word. A bytecode
file is a whole number of words, so there are no such zeros behind it.
-/

namespace ThreadedCode

namespace Numeral

/-- Commas and white space stand between numerals. -/
def separates (char : Char) : Bool := char == ',' || char.isWhitespace

/-- The pieces that commas and white space separate. -/
def pieces (chars : List Char) : List (List Char) :=
  (chars.splitOnP separates).filter fun piece => !piece.isEmpty

/-- The pieces of a text, each read as a decimal integer if it is one. -/
def integers (text : String) : List (Option Int) :=
  (pieces text.toList).map fun piece => (String.ofList piece).toInt?

theorem pieces_of_plain {chars : List Char} (filled : chars ≠ [])
    (plain : ∀ char ∈ chars, separates char = false) : pieces chars = [chars] := by
  rw [pieces, List.splitOnP_eq_singleton plain]
  simp [filled]

/-- A separator belongs to no piece. -/
theorem pieces_append_cons (front back : List Char) {char : Char} (blank : separates char = true) :
    pieces (front ++ char :: back) = pieces front ++ pieces back := by
  rw [pieces, List.splitOnP_append_cons front back blank, List.filter_append]
  rfl

theorem pieces_cons {char : Char} (blank : separates char = true) (rest : List Char) :
    pieces (char :: rest) = pieces rest :=
  pieces_append_cons [] rest blank

theorem pieces_indentation (depth : Nat) (rest : List Char) :
    pieces ((Page.indentation depth).toList ++ rest) = pieces rest := by
  rw [Page.indentation, String.toList_ofList]
  induction 4 * depth with
  | zero => rfl
  | succ count ih =>
      rw [List.replicate_succ, List.cons_append, pieces_cons (by decide)]
      exact ih

/-- The pieces of lines that are put one below the other. -/
theorem pieces_lines (lines : List String) (rest : List Char) :
    pieces ((String.join (lines.map (· ++ "\n"))).toList ++ rest) =
      lines.flatMap (fun line => pieces line.toList) ++ pieces rest := by
  induction lines with
  | nil => rfl
  | cons line others ih =>
      have split : (String.join ((line :: others).map (· ++ "\n"))).toList ++ rest =
          line.toList ++ '\n' :: ((String.join (others.map (· ++ "\n"))).toList ++ rest) := by
        simp
      rw [split, pieces_append_cons _ _ (by decide), ih, List.flatMap_cons, List.append_assoc]

/-- No separator is a digit or a sign. -/
theorem outside_of_separates {char : Char} (blank : separates char = true) :
    Identifier.isContinue char = false ∧ char ≠ '-' := by
  simp only [separates, Char.isWhitespace, Bool.or_eq_true, beq_iff_eq,
    decide_eq_true_eq] at blank
  rcases blank with rfl | ((rfl | rfl) | rfl) | rfl <;> decide

theorem pieces_word (word : Word) : pieces word.text.toList = [word.text.toList] := by
  apply pieces_of_plain
  · rw [Ne, String.toList_eq_nil_iff, Word.text]
    cases word.toInt with
    | ofNat number => exact (Lexer.isWord_repr number).filled
    | negSucc number =>
        intro empty
        exact absurd (String.append_eq_empty_iff.mp empty).1 (by decide)
  · intro char member
    rw [Bool.eq_false_iff]
    intro blank
    obtain ⟨outside, unsigned⟩ := outside_of_separates blank
    exact word.not_mem_text outside unsigned member

/-- The pieces of a row are its words. -/
theorem pieces_rowText (row : List Word) :
    pieces (SourceUnit.rowText row).toList = row.map fun word => word.text.toList := by
  induction row with
  | nil => rfl
  | cons word rest ih =>
      cases rest with
      | nil =>
          have single : (SourceUnit.rowText [word]).toList = word.text.toList ++ ',' :: [] := by
            simp [SourceUnit.rowText]
          rw [single, pieces_append_cons _ _ (by decide), pieces_word]
          rfl
      | cons next others =>
          have split : (SourceUnit.rowText (word :: next :: others)).toList =
              word.text.toList ++ ',' :: ' ' :: (SourceUnit.rowText (next :: others)).toList := by
            simp [SourceUnit.rowText]
          rw [split, pieces_append_cons _ _ (by decide), pieces_cons (by decide), pieces_word, ih]
          rfl

end Numeral

namespace SourceUnit

/-- The rows are the words in order. -/
theorem flatten_rows (width : Nat) (words : List Word) : (rows width words).flatten = words := by
  fun_induction rows width words with
  | case1 words empty => exact (List.isEmpty_iff.mp empty).symm
  | case2 words filled ih => rw [List.flatten_cons, ih, List.take_append_drop]

theorem length_le_of_mem_rows {width : Nat} {words row : List Word}
    (member : row ∈ rows width words) : row.length ≤ max width 1 := by
  fun_induction rows width words with
  | case1 words empty => cases member
  | case2 words filled ih =>
      rcases List.mem_cons.mp member with rfl | later
      · exact List.length_take_le _ _
      · exact ih later

/-- All rows but the last one are full. -/
theorem length_of_mem_dropLast_rows {width : Nat} {words row : List Word}
    (member : row ∈ (rows width words).dropLast) : row.length = max width 1 := by
  fun_induction rows width words with
  | case1 words empty => cases member
  | case2 words filled ih =>
      by_cases last : rows width (words.drop (max width 1)) = []
      · rw [last] at member
        cases member
      · rw [List.dropLast_cons_of_ne_nil last] at member
        rcases List.mem_cons.mp member with rfl | later
        · -- a row follows, so there are more words than fit on this one
          have more : words.drop (max width 1) ≠ [] := by
            intro none
            rw [none, rows] at last
            exact last rfl
          rw [Ne, List.drop_eq_nil_iff] at more
          rw [List.length_take]
          omega
        · exact ih later

theorem pieces_tableLine (depth : Nat) (row : List Word) :
    Numeral.pieces (Page.indentation depth ++ rowText row).toList =
      row.map fun word => word.text.toList := by
  rw [String.toList_append, Numeral.pieces_indentation, Numeral.pieces_rowText]

theorem length_integers_tableLine (depth : Nat) (row : List Word) :
    (Numeral.integers (Page.indentation depth ++ rowText row)).length = row.length := by
  rw [Numeral.integers, List.length_map, pieces_tableLine, List.length_map]

theorem newline_not_mem_tableLine (depth : Nat) (row : List Word) :
    '\n' ∉ (Page.indentation depth ++ rowText row).toList := by
  rw [String.toList_append, List.mem_append, not_or]
  constructor
  · simp [Page.indentation, List.mem_replicate]
  · exact not_mem_rowText (by decide) (by decide) row

/-- The pieces between the braces of a table are the words. -/
theorem pieces_tableInner (settings : Settings) (words : List Word) (depth : Nat) :
    Numeral.pieces (tableInner settings words depth).toList =
      words.map fun word => word.text.toList := by
  have inside : (tableInner settings words depth).toList =
      '\n' :: ((String.join ((tableLines settings words depth).map (· ++ "\n"))).toList
        ++ ((Page.indentation depth).toList ++ [])) := by
    simp [tableInner]
  calc
    _ = ((tableLines settings words depth).flatMap fun line => Numeral.pieces line.toList)
        ++ [] := by
      rw [inside, Numeral.pieces_cons (by decide), Numeral.pieces_lines,
        Numeral.pieces_indentation]
      rfl
    _ = (rows settings.wordsPerLine words).flatten.map fun word => word.text.toList := by
      rw [List.append_nil, tableLines, List.flatMap_map, List.map_flatten, List.flatMap_def]
      exact congrArg List.flatten
        (List.map_congr_left fun row _ => pieces_tableLine (depth + 1) row)
    _ = words.map fun word => word.text.toList := by rw [flatten_rows]

/-- The integers between the braces of a table are the words. -/
theorem integers_tableInner (settings : Settings) (words : List Word) (depth : Nat) :
    Numeral.integers (tableInner settings words depth) =
      words.map fun word => some word.toInt := by
  rw [Numeral.integers, pieces_tableInner, List.map_map]
  apply List.map_congr_left
  intro word _
  rw [Function.comp_apply, String.ofList_toList]
  exact Int.toInt?_repr word.toInt

/-- The text between the braces of a table has no braces itself. -/
theorem brace_not_mem_tableInner (settings : Settings) (words : List Word) (depth : Nat)
    {brace : Char} (outside : Identifier.isContinue brace = false)
    (apart : brace ∉ ['-', ',', ' ', '\n']) :
    brace ∉ (tableInner settings words depth).toList := by
  simp only [List.mem_cons, List.not_mem_nil, or_false, not_or] at apart
  obtain ⟨unsigned, comma, blank, newline⟩ := apart
  have indentation : ∀ depth, brace ∉ (Page.indentation depth).toList := by
    intro depth
    simp [Page.indentation, List.mem_replicate, blank]
  have lines :
      brace ∉ (String.join ((tableLines settings words depth).map (· ++ "\n"))).toList := by
    rw [String.toList_join, List.mem_flatMap]
    rintro ⟨text, listed, inside⟩
    obtain ⟨line, member, rfl⟩ := List.mem_map.mp listed
    obtain ⟨row, -, rfl⟩ := List.mem_map.mp member
    have content := not_mem_rowText outside (by simp [unsigned, comma, blank]) row
    simp only [String.toList_append, List.mem_append] at inside
    rcases inside with (before | within) | after
    · exact indentation _ before
    · exact content within
    · exact newline (by simpa using after)
  simp only [tableInner, String.toList_append, List.mem_append, not_or]
  exact ⟨⟨by simpa using newline, lines⟩, indentation depth⟩

/-- A table is written on any page, also behind a line that has begun. -/
theorem performAll_table (page : Page) (settings : Settings) (words : List Word) :
    page.performAll (table settings words) =
      .ok ⟨page.text ++ (tableHead settings page.depth ++ "\x7b"
        ++ tableInner settings words page.depth ++ "\x7d;" ++ "\n"), page.depth, false⟩ := by
  have begins : page.performAll (table settings words) =
      Page.performAll ⟨page.text, page.depth, false⟩ (table settings words) := rfl
  rw [begins]
  exact table_appends_at settings words page.depth page.text

end SourceUnit

namespace LittleEndian

theorem value_zeros (count : Nat) : value (List.replicate count 0) = 0 := by
  induction count with
  | zero => rfl
  | succ count ih =>
      rw [List.replicate_succ, value, ih]
      rfl

/-- Zeros behind the last byte do not count. -/
theorem value_append_zeros (stored : Bytes) (count : Nat) :
    value (stored ++ List.replicate count 0) = value stored := by
  induction stored with
  | nil => exact value_zeros count
  | cons byte rest ih => rw [List.cons_append, value, ih, value]

/-- A word is stored as the bytes that spell it, with zeros behind them if they are too few. -/
theorem encode_word {stored : Bytes} (short : stored.length ≤ 4) :
    Codec.word.encode (word stored) = stored ++ List.replicate (4 - stored.length) 0 := by
  have length : (stored ++ List.replicate (4 - stored.length) (0 : UInt8)).length = 4 := by
    rw [List.length_append, List.length_replicate]
    omega
  rw [word, ← value_append_zeros stored (4 - stored.length)]
  exact Codec.bytes_ofNat_value length

/-- The words of a buffer spell its bytes, with zeros behind them up to the next word. -/
theorem encode_words (raw : Bytes) :
    (words raw).flatMap Codec.word.encode =
      raw ++ List.replicate (padding raw.length) 0 := by
  fun_induction words raw with
  | case1 first second third fourth rest ih =>
      have group := encode_word (Nat.le_refl [first, second, third, fourth].length)
      have length : padding (first :: second :: third :: fourth :: rest).length =
          padding rest.length := by
        simp only [List.length_cons, padding]
        omega
      rw [List.flatMap_cons, group, ih, length]
      rfl
  | case2 => rfl
  | case3 rest short filled =>
      have few : 0 < rest.length ∧ rest.length < 4 := by
        rcases rest with _ | ⟨first, _ | ⟨second, _ | ⟨third, _ | ⟨fourth, others⟩⟩⟩⟩
        · exact absurd rfl filled
        · simp
        · simp
        · simp
        · exact absurd rfl (short first second third fourth others)
      have length : padding rest.length = 4 - rest.length := by
        rw [padding]
        omega
      rw [List.flatMap_cons, encode_word (by omega), length, List.flatMap_nil, List.append_nil]

end LittleEndian

namespace Codec

/-- Everything that the codec stores is a whole number of words. -/
def Aligned {α : Type} (codec : Codec α) : Prop := ∀ value, 4 ∣ (codec.encode value).length

theorem bytes_aligned (number : Nat) : 4 ∣ (LittleEndian.bytes 4 number).length :=
  ⟨1, LittleEndian.bytes_length 4 number⟩

theorem unsigned_aligned : unsigned.Aligned := fun number => bytes_aligned number.toNat

theorem word_aligned : word.Aligned := fun content => bytes_aligned content.toUInt32.toNat

theorem padded_aligned : padded.Aligned := by
  intro content
  have length : (encodeLength content.length).length = 4 := LittleEndian.bytes_length 4 _
  simp only [padded, List.length_append, List.length_replicate, length, LittleEndian.padding]
  omega

theorem text_aligned : text.Aligned := fun content => padded_aligned (Utf8.encode content)

theorem list_aligned {α : Type} {element : Codec α} (aligned : element.Aligned) :
    (list element).Aligned := by
  intro values
  rw [list, List.length_append]
  apply Nat.dvd_add (unsigned_aligned _)
  induction values with
  | nil => exact Nat.dvd_zero 4
  | cons value rest ih =>
      rw [List.flatMap_cons, List.length_append]
      exact Nat.dvd_add (aligned value) ih

end Codec

open Codec in
theorem FunctionEntry.codec_aligned : codec.Aligned := by
  intro entry
  rw [codec, List.length_append]
  exact Nat.dvd_add (word_aligned entry.start) (text_aligned entry.name)

open Codec in
/-- A bytecode file is a whole number of words. -/
theorem Sections.codec_aligned : codec.Aligned := by
  intro sections
  have header : 4 ∣ (magic ++ unsigned.encode version).length := by decide
  have code := list_aligned word_aligned sections.code
  have attributes : 4 ∣ (Attributes.listCodec.encode sections.attributes).length :=
    padded_aligned _
  have functions := list_aligned FunctionEntry.codec_aligned sections.functions
  have strings := list_aligned text_aligned sections.strings
  have identifiers := list_aligned text_aligned sections.identifiers
  have builtins := list_aligned text_aligned sections.builtins
  simp only [codec, List.length_append] at *
  omega

open SourceUnit in
/-- Wherever a table is written, the integers between its braces are the words of the bytes, on
lines that are full but for the last one. The words spell the bytes with zeros behind them up to the
next word, and a bytecode file needs no zeros. -/
theorem embedded_table_reads_back :
    (∀ (page : Page) (settings : Settings) (raw : Bytes),
      ∃ (inner : String) (lines : List String),
        page.performAll (table settings (LittleEndian.words raw)) =
          .ok ⟨page.text ++ (tableHead settings page.depth ++ "\x7b" ++ inner ++ "\x7d;" ++ "\n"),
            page.depth, false⟩ ∧
        ('\x7b' ∉ inner.toList ∧ '\x7d' ∉ inner.toList) ∧
        Numeral.integers inner =
          (LittleEndian.words raw).map (fun word => some word.toInt) ∧
        inner = "\n" ++ String.join (lines.map (· ++ "\n")) ++ Page.indentation page.depth ∧
        (∀ line ∈ lines, '\n' ∉ line.toList ∧ 0 < (Numeral.integers line).length ∧
          (Numeral.integers line).length ≤ max settings.wordsPerLine 1) ∧
        (∀ line ∈ lines.dropLast,
          (Numeral.integers line).length = max settings.wordsPerLine 1) ∧
        (LittleEndian.words raw).flatMap Codec.word.encode =
          raw ++ List.replicate (LittleEndian.padding raw.length) 0) ∧
    ∀ sections : Sections,
      4 ∣ (Image.ofSections sections).raw.length ∧
      (LittleEndian.words (Image.ofSections sections).raw).flatMap Codec.word.encode =
        (Image.ofSections sections).raw := by
  constructor
  · intro page settings raw
    refine ⟨_, _, performAll_table page settings _, ⟨?_, ?_⟩, integers_tableInner settings _ _, rfl,
      ?_, ?_, LittleEndian.encode_words raw⟩
    · exact brace_not_mem_tableInner settings _ _ (by decide) (by decide)
    · exact brace_not_mem_tableInner settings _ _ (by decide) (by decide)
    · intro line member
      obtain ⟨row, listed, rfl⟩ := List.mem_map.mp member
      rw [length_integers_tableLine]
      exact ⟨newline_not_mem_tableLine _ row, List.length_pos_iff.mpr (ne_nil_of_mem_rows listed),
        length_le_of_mem_rows listed⟩
    · intro line member
      rw [tableLines, ← List.map_dropLast] at member
      obtain ⟨row, listed, rfl⟩ := List.mem_map.mp member
      rw [length_integers_tableLine]
      exact length_of_mem_dropLast_rows listed
  · intro sections
    have aligned := Sections.codec_aligned sections
    have none : LittleEndian.padding (Sections.codec.encode sections).length = 0 := by
      rw [LittleEndian.padding]
      omega
    refine ⟨aligned, ?_⟩
    rw [LittleEndian.encode_words, Image.ofSections, none]
    exact List.append_nil _

open SourceUnit in
/-- Nine bytes are three words on two lines, and three zeros fill up the last word. -/
theorem embedded_table_reads_back_nineBytes :
    let raw : Bytes := [1, 0, 0, 0, 255, 255, 255, 255, 128]
    ∃ (inner : String) (lines : List String),
      Page.performAll ⟨"", 1, true⟩ (table { wordsPerLine := 2 } (LittleEndian.words raw)) =
        .ok ⟨tableHead { wordsPerLine := 2 } 1 ++ "\x7b" ++ inner ++ "\x7d;" ++ "\n", 1, false⟩ ∧
      Numeral.integers inner = [some 1, some (-1), some 128] ∧
      inner = "\n" ++ String.join (lines.map (· ++ "\n")) ++ "    " ∧
      (∀ line ∈ lines.dropLast, (Numeral.integers line).length = 2) ∧
      (LittleEndian.words raw).flatMap Codec.word.encode = raw ++ [0, 0, 0] := by
  obtain ⟨inner, lines, written, -, read, shape, -, full, bytes⟩ :=
    embedded_table_reads_back.1 ⟨"", 1, true⟩ { wordsPerLine := 2 }
      [1, 0, 0, 0, 255, 255, 255, 255, 128]
  rw [String.empty_append] at written
  exact ⟨inner, lines, written, read.trans (by decide), shape, full, bytes⟩

end ThreadedCode
