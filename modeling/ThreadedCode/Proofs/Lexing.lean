import ThreadedCode.Proofs.UnitText

/-!
# Lexemes of generated code

Generated code is read the way a compiler reads it. All ends of lines count as line feeds, and a
backslash at the end of a line joins the line with the next one. What is left is a sequence of
lexemes, without the comments, which are put in brackets or end with their line. A lexeme is a word
of identifier characters, or a single character of another kind. White space only separates, so the
indentation of a page is not read. A text that ends with no word reads the same whatever follows it.
Trigraphs, which the language no longer has, are not replaced.
-/

namespace ThreadedCode

/-- Where a reader of characters stands. -/
inductive Lexer where
  /-- In code, with the word that was begun. -/
  | code (word : List Char)
  /-- In a block comment. -/
  | comment
  /-- In a comment that ends with its line. -/
  | line
  deriving DecidableEq, Repr

namespace Lexer

/-- The characters with a line feed for every end of a line. -/
def lineFeeds : List Char → List Char
  | '\r' :: '\n' :: rest => '\n' :: lineFeeds rest
  | '\r' :: rest => '\n' :: lineFeeds rest
  | char :: rest => char :: lineFeeds rest
  | [] => []

/-- Blanks and control characters can stand between a backslash and the end of its line. -/
def isBlank (char : Char) : Bool := char.toNat ≤ 32 && char != '\n'

/-- Does the line end here, blanks aside? -/
def endsHere (rest : List Char) : Bool := (rest.dropWhile isBlank).head? == some '\n'

/-- The characters without every backslash at the end of a line and without the end of that line.
Given is whether the rest of a line is to be left out first. -/
def splice : Bool → List Char → List Char
  | _, [] => []
  | true, char :: rest => splice (char != '\n') rest
  | false, char :: rest =>
    if char == '\\' && endsHere rest then splice true rest else char :: splice false rest

/-- The characters with their lines joined. -/
def joined (chars : List Char) : List Char := splice false (lineFeeds chars)

/-- The lexeme of a word, unless it is empty. -/
def finished (word : List Char) : List String := if word.isEmpty then [] else [String.ofList word]

/-- The lexeme of a character that belongs to no word. -/
def mark (char : Char) : List String := if char.isWhitespace then [] else [String.ofList [char]]

/-- The lexemes of the characters. -/
def read : Lexer → List Char → List String
  | .code word, [] => finished word
  | .code word, '/' :: '*' :: rest => finished word ++ read .comment rest
  | .code word, '/' :: '/' :: rest => finished word ++ read .line rest
  | .code word, char :: rest =>
    if Identifier.isContinue char then read (.code (word ++ [char])) rest
    else finished word ++ mark char ++ read (.code []) rest
  | .comment, [] => []
  | .comment, '*' :: '/' :: rest => read (.code []) rest
  | .comment, _ :: rest => read .comment rest
  | .line, [] => []
  | .line, '\n' :: rest => read (.code []) rest
  | .line, _ :: rest => read .line rest

/-- The lexemes of a text. -/
def lexemes (text : String) : List String := read (.code []) (joined text.toList)

/-- At the given depth the text reads as the lexemes, whether or not it begins a line and whatever
follows. -/
def Reads (depth : Nat) (text : String) (found : List String) : Prop :=
  ∀ fresh rest, read (.code []) (joined (Page.indented depth fresh text.toList ++ rest)) =
    found ++ read (.code []) (joined rest)

/-- The characters do not go on with a word. -/
def Apart : List Char → Prop
  | [] => True
  | char :: _ => Identifier.isContinue char = false

/-- At the given depth the text reads as the lexemes, provided that no word goes on behind it. -/
def ReadsApart (depth : Nat) (text : String) (found : List String) : Prop :=
  ∀ fresh rest, Apart (joined rest) →
    read (.code []) (joined (Page.indented depth fresh text.toList ++ rest)) =
      found ++ read (.code []) (joined rest)

/-- The character neither begins a comment nor ends or joins lines in a way of its own. -/
def isPlain (char : Char) : Bool := char != '/' && char != '\\' && char != '\r'

/-- All characters are plain. -/
def IsPlain (chars : List Char) : Prop := ∀ char ∈ chars, isPlain char = true

instance (chars : List Char) : Decidable (IsPlain chars) := List.decidableBAll ..

theorem lineFeeds_append {chars : List Char} (feeds : '\r' ∉ chars) (rest : List Char) :
    lineFeeds (chars ++ rest) = chars ++ lineFeeds rest := by
  induction chars with
  | nil => rfl
  | cons char others ih =>
      rw [List.mem_cons, not_or] at feeds
      rw [List.cons_append, lineFeeds, ih feeds.2, List.cons_append]
      · exact fun _ same => absurd same.symm feeds.1
      · exact fun same => absurd same.symm feeds.1

theorem splice_append {chars : List Char} (whole : '\\' ∉ chars) (rest : List Char) :
    splice false (chars ++ rest) = chars ++ splice false rest := by
  induction chars with
  | nil => rfl
  | cons char others ih =>
      rw [List.mem_cons, not_or] at whole
      simp [splice, Ne.symm whole.1, ih whole.2]

namespace IsPlain

variable {chars : List Char}

theorem not_mem (plain : IsPlain chars) {char : Char} (special : isPlain char = false) :
    char ∉ chars := by
  intro member
  rw [plain char member] at special
  cases special

/-- Plain characters have no part in how lines are joined. -/
theorem joined_append (plain : IsPlain chars) (rest : List Char) :
    joined (chars ++ rest) = chars ++ joined rest := by
  rw [joined, lineFeeds_append (plain.not_mem (by decide)),
    splice_append (plain.not_mem (by decide))]
  rfl

theorem joined_eq (plain : IsPlain chars) : joined chars = chars := by
  simpa [joined, lineFeeds, splice] using plain.joined_append []

theorem indented (plain : IsPlain chars) (depth : Nat) (fresh : Bool) :
    IsPlain (Page.indented depth fresh chars) := by
  intro char member
  by_cases blank : char = ' '
  · rw [blank]
    decide
  · apply plain
    apply Decidable.byContradiction
    intro outside
    exact Page.not_mem_indented blank outside member

end IsPlain

/-- In code, a character that begins no comment goes on with a word or ends it. -/
theorem read_code_cons {char : Char} {rest : List Char}
    (plain : char = '/' → ∀ tail, rest ≠ '*' :: tail ∧ rest ≠ '/' :: tail) (word : List Char) :
    read (.code word) (char :: rest) =
      if Identifier.isContinue char then read (.code (word ++ [char])) rest
      else finished word ++ mark char ++ read (.code []) rest := by
  rw [read]
  · exact fun tail slash => (plain slash tail).1
  · exact fun tail slash => (plain slash tail).2

/-- A word ends in front of characters that do not go on with it. -/
theorem read_apart {chars : List Char} (apart : Apart chars) (word : List Char) :
    read (.code word) chars = finished word ++ read (.code []) chars := by
  cases chars with
  | nil => simp [read, finished]
  | cons char rest =>
      by_cases block : ∃ tail, char = '/' ∧ rest = '*' :: tail
      · obtain ⟨tail, rfl, rfl⟩ := block
        simp [read, finished]
      · by_cases line : ∃ tail, char = '/' ∧ rest = '/' :: tail
        · obtain ⟨tail, rfl, rfl⟩ := line
          simp [read, finished]
        · have plain : char = '/' → ∀ tail, rest ≠ '*' :: tail ∧ rest ≠ '/' :: tail :=
            fun slash tail => ⟨fun star => block ⟨tail, slash, star⟩,
              fun second => line ⟨tail, slash, second⟩⟩
          have outside : Identifier.isContinue char = false := apart
          simp [read_code_cons plain, outside, finished]

/-- What begins with a plain character that belongs to no word goes on with no word. -/
theorem apart_joined {char : Char} (outside : Identifier.isContinue char = false)
    (plain : isPlain char = true) (rest : List Char) : Apart (joined (char :: rest)) := by
  have single : IsPlain [char] := by
    intro other member
    rw [List.mem_singleton.mp member]
    exact plain
  have same := single.joined_append rest
  rw [List.singleton_append, List.singleton_append] at same
  rw [same]
  exact outside

section Texts

variable {depth : Nat} {text more : String} {found next : List String}

theorem Reads.apart (reads : Reads depth text found) : ReadsApart depth text found :=
  fun fresh rest _ => reads fresh rest

theorem reads_empty : Reads depth "" [] := fun _ _ => rfl

theorem Reads.append (reads : Reads depth text found) (follows : Reads depth more next) :
    Reads depth (text ++ more) (found ++ next) := by
  intro fresh rest
  rw [String.toList_append, Page.indented_append, List.append_assoc, reads, follows,
    List.append_assoc]

theorem Reads.append_apart (reads : Reads depth text found) (follows : ReadsApart depth more next) :
    ReadsApart depth (text ++ more) (found ++ next) := by
  intro fresh rest apart
  rw [String.toList_append, Page.indented_append, List.append_assoc, reads, follows _ rest apart,
    List.append_assoc]

/-- The text begins with a plain character that belongs to no word. -/
def Opens (text : String) : Prop :=
  text.toList.head?.any (fun char => !Identifier.isContinue char && isPlain char) = true

instance (text : String) : Decidable (Opens text) := inferInstanceAs (Decidable (_ = true))

/-- What opens no word does so at any depth. -/
theorem Opens.apart (opens : Opens text) (fresh : Bool) (rest : List Char) :
    Apart (joined (Page.indented depth fresh text.toList ++ rest)) := by
  unfold Opens at opens
  cases chars : text.toList with
  | nil =>
      rw [chars] at opens
      cases opens
  | cons char others =>
      rw [chars, List.head?_cons, Option.any_some, Bool.and_eq_true, Bool.not_eq_true'] at opens
      obtain ⟨outside, plain⟩ := opens
      by_cases ends : char = '\n'
      · simp only [Page.indented, ends, if_true]
        exact apart_joined (by decide) (by decide) _
      · simp only [Page.indented, ends, if_false]
        cases fresh with
        | false => exact apart_joined outside plain _
        | true =>
            cases depth with
            | zero => exact apart_joined outside plain _
            | succ depth => exact apart_joined (by decide) (by decide) _

theorem ReadsApart.append (reads : ReadsApart depth text found) (opens : Opens more)
    (follows : Reads depth more next) : Reads depth (text ++ more) (found ++ next) := by
  intro fresh rest
  rw [String.toList_append, Page.indented_append, List.append_assoc,
    reads _ _ (opens.apart _ _), follows, List.append_assoc]

/-- A text that was indented reads as the text at its depth. -/
theorem Reads.indentText (reads : Reads depth text found) :
    Reads 0 (Page.indentText depth text) found := by
  intro fresh rest
  rw [Page.indentText, String.toList_ofList, Page.indented_zero]
  exact reads true rest

theorem lexemes_of_reads (reads : ReadsApart 0 text found) : lexemes text = found := by
  have all := reads false [] trivial
  rw [Page.indented_zero, List.append_nil] at all
  rw [lexemes, all]
  exact List.append_nil found

end Texts

theorem read_append {chars rest : List Char} (plain : '/' ∉ chars) (apart : Apart rest)
    (word : List Char) :
    read (.code word) (chars ++ rest) = read (.code word) chars ++ read (.code []) rest := by
  induction chars generalizing word with
  | nil => exact read_apart apart word
  | cons char others ih =>
      rw [List.mem_cons, not_or] at plain
      have begins : char ≠ '/' := Ne.symm plain.1
      rw [List.cons_append, read_code_cons (absurd · begins), read_code_cons (absurd · begins),
        ih plain.2, ih plain.2]
      split <;> simp

/-- Behind a character that belongs to no word it does not matter what follows. -/
theorem read_append_closed {chars : List Char} (plain : '/' ∉ chars) {last : Char}
    (ends : chars.getLast? = some last) (outside : Identifier.isContinue last = false)
    (rest : List Char) :
    read (.code []) (chars ++ rest) = read (.code []) chars ++ read (.code []) rest := by
  obtain ⟨front, rfl⟩ := List.getLast?_eq_some_iff.mp ends
  rw [List.mem_append, List.mem_singleton, not_or] at plain
  have closes (behind : List Char) :
      read (.code []) (last :: behind) = mark last ++ read (.code []) behind := by
    rw [read_code_cons (absurd · (Ne.symm plain.2)), outside]
    simp [finished]
  have splits (behind : List Char) : read (.code []) (front ++ last :: behind) =
      read (.code []) front ++ (mark last ++ read (.code []) behind) := by
    have apart : Apart (last :: behind) := outside
    rw [read_append plain.1 apart, closes]
  rw [List.append_assoc, List.singleton_append, splits, splits, List.append_assoc,
    List.append_assoc]
  rfl

theorem read_blanks {state : Lexer} (outside : state = .code [] ∨ state = .comment) (count : Nat)
    (rest : List Char) : read state (List.replicate count ' ' ++ rest) = read state rest := by
  induction count with
  | zero => rfl
  | succ count ih =>
      rw [List.replicate_succ, List.cons_append, ← ih]
      rcases outside with rfl | rfl <;> rfl

/-- Outside of words it does not matter whether a line begins here. -/
theorem read_indented_fresh (depth : Nat) (fresh : Bool) (chars rest : List Char) :
    read (.code []) (Page.indented depth fresh chars ++ rest) =
      read (.code []) (Page.indented depth false chars ++ rest) := by
  cases chars with
  | nil => rfl
  | cons char others =>
      cases fresh with
      | false => rfl
      | true =>
          simp only [Page.indented]
          split
          · rfl
          · rw [if_pos trivial, List.append_assoc]
            exact read_blanks (Or.inl rfl) _ _

/-- Indentation is not read. -/
theorem read_indented (depth : Nat) {chars : List Char} (plain : '/' ∉ chars) (word : List Char) :
    read (.code word) (Page.indented depth false chars) = read (.code word) chars := by
  induction chars generalizing word with
  | nil => rfl
  | cons char rest ih =>
      rw [List.mem_cons, not_or] at plain
      have begins : char ≠ '/' := Ne.symm plain.1
      rw [Page.indented_midLine, read_code_cons (absurd · begins),
        read_code_cons (absurd · begins)]
      split
      · rename_i continues
        -- a word goes on, so the line does
        have midLine : decide (char = '\n') = false := by
          apply decide_eq_false
          rintro rfl
          cases continues
        rw [midLine, ih plain.2]
      · have fresh := read_indented_fresh depth (decide (char = '\n')) rest []
        rw [List.append_nil, List.append_nil] at fresh
        rw [fresh, ih plain.2]

section Plain

variable {depth : Nat} {text : String}

theorem lexemes_of_plain (plain : IsPlain text.toList) :
    lexemes text = read (.code []) text.toList := by
  rw [lexemes, plain.joined_eq]

theorem read_plain (plain : IsPlain text.toList) (fresh : Bool) :
    read (.code []) (Page.indented depth fresh text.toList) = lexemes text := by
  have midLine := read_indented_fresh depth fresh text.toList []
  rw [List.append_nil, List.append_nil] at midLine
  rw [midLine, read_indented depth (plain.not_mem (by decide)), lexemes_of_plain plain]

/-- Plain code reads as its lexemes. -/
theorem readsApart_lexemes (plain : IsPlain text.toList) :
    ReadsApart depth text (lexemes text) := by
  intro fresh rest apart
  have indented := plain.indented depth fresh
  rw [indented.joined_append, read_append (indented.not_mem (by decide)) apart, read_plain plain]

/-- The text is plain code that ends with no word. -/
def IsClosed (text : String) : Prop :=
  IsPlain text.toList ∧ text.toList.getLast?.any (fun char => !Identifier.isContinue char) = true

instance (text : String) : Decidable (IsClosed text) := inferInstanceAs (Decidable (_ ∧ _))

/-- Plain code that ends with no word reads as its lexemes, whatever follows. -/
theorem IsClosed.reads (closed : IsClosed text) : Reads depth text (lexemes text) := by
  intro fresh rest
  obtain ⟨plain, closed⟩ := closed
  have indented := plain.indented depth fresh
  obtain ⟨last, ends, outside⟩ := (Option.any_eq_true _ _).mp closed
  have ends : (Page.indented depth fresh text.toList).getLast? = some last := by
    rw [Page.getLast?_indented, ends]
  rw [indented.joined_append, read_append_closed (indented.not_mem (by decide)) ends
    (by simpa using outside), read_plain plain]

end Plain

theorem read_word {chars : List Char}
    (continues : ∀ char ∈ chars, Identifier.isContinue char = true) (word : List Char) :
    read (.code word) chars = finished (word ++ chars) := by
  induction chars generalizing word with
  | nil => simp [read]
  | cons char rest ih =>
      rw [List.forall_mem_cons] at continues
      have begins : char ≠ '/' := by
        rintro rfl
        cases continues.1
      rw [read_code_cons (absurd · begins), if_pos continues.1, ih continues.2, List.append_assoc]
      rfl

theorem mem_of_mem_finished {word : List Char} {lexeme : String} (member : lexeme ∈ finished word)
    {char : Char} (inside : char ∈ lexeme.toList) : char ∈ word := by
  unfold finished at member
  split at member
  · cases member
  · rw [List.mem_singleton.mp member, String.toList_ofList] at inside
    exact inside

theorem mem_of_mem_mark {other : Char} {lexeme : String} (member : lexeme ∈ mark other)
    {char : Char} (inside : char ∈ lexeme.toList) : char = other := by
  unfold mark at member
  split at member
  · cases member
  · rw [List.mem_singleton.mp member, String.toList_ofList] at inside
    exact List.mem_singleton.mp inside

/-- Lexemes are made of the characters that are read. -/
theorem mem_of_mem_read {chars : List Char} (plain : '/' ∉ chars) {word : List Char}
    {lexeme : String} (member : lexeme ∈ read (.code word) chars) {char : Char}
    (inside : char ∈ lexeme.toList) : char ∈ word ∨ char ∈ chars := by
  induction chars generalizing word with
  | nil => exact Or.inl (mem_of_mem_finished member inside)
  | cons other rest ih =>
      rw [List.mem_cons, not_or] at plain
      rw [read_code_cons (absurd · (Ne.symm plain.1))] at member
      split at member
      · simpa [or_assoc] using ih plain.2 member
      · rcases List.mem_append.mp member with before | after
        · rcases List.mem_append.mp before with before | here
          · exact Or.inl (mem_of_mem_finished before inside)
          · exact Or.inr (List.mem_cons.mpr (Or.inl (mem_of_mem_mark here inside)))
        · have found := (ih plain.2 after).resolve_left List.not_mem_nil
          exact Or.inr (List.mem_cons_of_mem other found)

/-- The lexemes of plain code are made of its characters. -/
theorem mem_of_mem_lexemes {text lexeme : String} (plain : IsPlain text.toList)
    (member : lexeme ∈ lexemes text) {char : Char} (inside : char ∈ lexeme.toList) :
    char ∈ text.toList := by
  rw [lexemes_of_plain plain] at member
  exact (mem_of_mem_read (plain.not_mem (by decide)) member inside).resolve_left List.not_mem_nil

/-- Characters of words are plain. -/
theorem isPlain_of_isContinue {chars : List Char}
    (continues : ∀ char ∈ chars, Identifier.isContinue char = true) : IsPlain chars := by
  intro char member
  have word := continues char member
  simp only [isPlain, Bool.and_eq_true, bne_iff_ne]
  refine ⟨⟨?_, ?_⟩, ?_⟩ <;>
  · rintro rfl
    cases word

/-- The text is a lexeme of word characters. -/
structure IsWord (text : String) : Prop where
  filled : text ≠ ""
  continues : ∀ char ∈ text.toList, Identifier.isContinue char = true

theorem IsWord.reads {depth : Nat} {text : String} (word : IsWord text) :
    ReadsApart depth text [text] := by
  have plain := isPlain_of_isContinue word.continues
  have all : lexemes text = [text] := by
    rw [lexemes_of_plain plain, read_word word.continues, List.nil_append, finished]
    simp [word.filled]
  rw [← all]
  exact readsApart_lexemes plain

theorem IsWord.ne_mark {text : String} (word : IsWord text) (char : Char)
    (outside : Identifier.isContinue char = false) : text ≠ String.ofList [char] := by
  rintro rfl
  have continues := word.continues char (by simp)
  rw [outside] at continues
  cases continues

theorem IsWord.append {text more : String} (word : IsWord text)
    (continues : ∀ char ∈ more.toList, Identifier.isContinue char = true) :
    IsWord (text ++ more) := by
  constructor
  · intro empty
    apply word.filled
    exact (String.append_eq_empty_iff.mp empty).1
  · intro char member
    rw [String.toList_append] at member
    rcases List.mem_append.mp member with first | second
    · exact word.continues char first
    · exact continues char second

theorem isWord_of_isValid {text : String} (valid : Identifier.isValid text.toList = true) :
    IsWord text := by
  constructor
  · rintro rfl
    cases valid
  · intro char member
    exact Identifier.isContinue_of_mem valid member

theorem isWord_repr (number : Nat) : IsWord (toString number) := by
  constructor
  · intro empty
    have digits := congrArg String.toList empty
    rw [Nat.toString_eq_repr, Nat.toList_repr] at digits
    exact Nat.toDigits_ne_nil digits
  · intro char member
    exact Identifier.isContinue_of_mem_repr member

/-- A list of texts with commas in between reads as the lexemes of the texts with commas in
between. -/
theorem readsApart_intercalate {depth : Nat} {α : Type} {text : α → String}
    {found : α → List String} (reads : ∀ entry, ReadsApart depth (text entry) (found entry))
    (entries : List α) :
    ReadsApart depth (", ".intercalate (entries.map text))
      ([","].intercalate (entries.map found)) := by
  induction entries with
  | nil => exact reads_empty.apart
  | cons entry rest ih =>
      cases rest with
      | nil => simpa using reads entry
      | cons next others =>
          have comma : Reads depth ", " [","] := IsClosed.reads (by decide)
          simp only [List.map_cons, String.intercalate_cons_cons, List.intercalate_cons_cons] at *
          exact ((reads entry).append (by decide) comma).append_apart ih

/-- The characters do not end a block comment. -/
inductive StaysOpen : List Char → Prop
  | nil : StaysOpen []
  | cons {char : Char} {rest : List Char} (apart : char = '*' → rest.head? ≠ some '/')
      (stays : StaysOpen rest) : StaysOpen (char :: rest)

/-- A blank does not end a comment. -/
theorem StaysOpen.blank {note : List Char} (stays : StaysOpen note) :
    StaysOpen (note ++ [' ']) := by
  induction stays with
  | nil => exact .cons nofun .nil
  | @cons char rest apart stays ih =>
      refine .cons (fun star => ?_) ih
      cases rest with
      | nil => nofun
      | cons next others => exact apart star

theorem read_comment_cons {char : Char} {rest : List Char}
    (apart : char = '*' → rest.head? ≠ some '/') :
    read .comment (char :: rest) = read .comment rest := by
  rw [read]
  rintro tail star rfl
  exact apart star rfl

/-- In the middle of a line only a blank can stand before its end. -/
theorem endsHere_cons {char : Char} (midLine : char ≠ '\n') (rest : List Char) :
    endsHere (char :: rest) = (isBlank char && endsHere rest) := by
  unfold endsHere
  cases blank : isBlank char <;> simp [blank, midLine]

section Comments

variable {depth : Nat} {behind : List Char}

/-- A line that begins inside of a block begins with no slash. -/
theorem head?_splice_fresh (chars : List Char) :
    (splice false (Page.indented (depth + 1) true chars ++ '*' :: behind)).head? ≠ some '/' := by
  cases chars with
  | nil => simp [Page.indented, splice]
  | cons char rest =>
      by_cases ends : char = '\n'
      · simp [Page.indented, ends, splice]
      · simp [Page.indented, ends, Nat.mul_add, List.replicate_succ, splice]

/-- If the line ends here, then what comes first behind its end is no slash. -/
theorem head?_splice_rest {chars : List Char}
    (ends : endsHere (Page.indented (depth + 1) false chars ++ '*' :: behind) = true) :
    (splice true (Page.indented (depth + 1) false chars ++ '*' :: behind)).head? ≠ some '/' := by
  induction chars with
  | nil => cases ends
  | cons char rest ih =>
      rw [Page.indented_midLine, List.cons_append] at ends ⊢
      by_cases newline : char = '\n'
      · subst newline
        exact head?_splice_fresh rest
      · have midLine : decide (char = '\n') = false := decide_eq_false newline
        have skips : (char != '\n') = true := bne_iff_ne.mpr newline
        rw [endsHere_cons newline, midLine, Bool.and_eq_true] at ends
        rw [splice, skips, midLine]
        exact ih ends.2

/-- Joining lines inside of a block puts no slash in front. -/
theorem head?_splice {chars : List Char} (apart : chars.head? ≠ some '/') :
    (splice false (Page.indented (depth + 1) false chars ++ '*' :: behind)).head? ≠ some '/' := by
  cases chars with
  | nil => simp [Page.indented, splice]
  | cons char rest =>
      rw [Page.indented_midLine, List.cons_append, splice]
      split
      · rename_i joins
        rw [Bool.and_eq_true, beq_iff_eq] at joins
        obtain ⟨rfl, ends⟩ := joins
        exact head?_splice_rest ends
      · simpa using apart

/-- Inside of a block a comment goes on up to its end, also where its lines are joined: the next
line is indented, so that joining puts no slash behind a star. -/
theorem read_comment_joined {note : List Char} (stays : StaysOpen note) :
    (∀ fresh, read .comment
        (splice false (Page.indented (depth + 1) fresh note ++ '*' :: '/' :: behind)) =
      read (.code []) (splice false behind)) ∧
    (endsHere (Page.indented (depth + 1) false note ++ '*' :: '/' :: behind) = true →
      read .comment
        (splice true (Page.indented (depth + 1) false note ++ '*' :: '/' :: behind)) =
      read (.code []) (splice false behind)) := by
  induction stays with
  | nil => exact ⟨fun _ => by simp [Page.indented, splice, read], nofun⟩
  | @cons char rest apart stays ih =>
      obtain ⟨code, skipping⟩ := ih
      by_cases newline : char = '\n'
      · subst newline
        have onward : read .comment (splice false ('\n' ::
            (Page.indented (depth + 1) true rest ++ '*' :: '/' :: behind))) =
              read (.code []) (splice false behind) := code true
        exact ⟨fun fresh => onward, fun _ => code true⟩
      · have midLine : decide (char = '\n') = false := decide_eq_false newline
        have skips : (char != '\n') = true := bne_iff_ne.mpr newline
        -- after a backslash the rest of the line is left out, which is the second statement
        have line : read .comment (splice false (char ::
            (Page.indented (depth + 1) false rest ++ '*' :: '/' :: behind))) =
              read (.code []) (splice false behind) := by
          rw [splice]
          split
          · rename_i joins
            rw [Bool.and_eq_true] at joins
            exact skipping joins.2
          · rw [read_comment_cons, code false]
            exact fun star => head?_splice (apart star)
        constructor
        · intro fresh
          simp only [Page.indented, if_neg newline, List.append_assoc, List.cons_append]
          cases fresh with
          | false => exact line
          | true =>
              rw [if_pos rfl, splice_append (by simp [List.mem_replicate]),
                read_blanks (Or.inr rfl)]
              exact line
        · intro ends
          rw [Page.indented_midLine, List.cons_append] at ends ⊢
          rw [endsHere_cons newline, midLine, Bool.and_eq_true] at ends
          rw [splice, skips, midLine]
          exact skipping ends.2

/-- Inside of a block a comment is not read, provided that only line feeds end its lines. -/
theorem reads_comment {note : String} (stays : StaysOpen note.toList)
    (feeds : '\r' ∉ note.toList) : Reads (depth + 1) (" /* " ++ note ++ " */") [] := by
  intro fresh rest
  have whole : (" /* " ++ note ++ " */").toList =
      [' ', '/', '*'] ++ ((' ' :: note.toList ++ [' ']) ++ ['*', '/']) := by simp
  have inside : StaysOpen (' ' :: note.toList ++ [' ']) := .cons nofun stays.blank
  have begins : ∀ before, Page.begun before (' ' :: note.toList ++ [' ']) = true := by
    intro before
    rw [Page.begun_append]
    rfl
  have returns : '\r' ∉ Page.indented (depth + 1) fresh (" /* " ++ note ++ " */").toList := by
    apply Page.not_mem_indented (by decide)
    simp [whole, feeds]
  rw [joined, lineFeeds_append returns, whole,
    Page.indented_append_begun (depth + 1) fresh (fun _ => rfl),
    Page.indented_append_begun (depth + 1) false begins, List.append_assoc, List.append_assoc]
  have opens (more : List Char) :
      read (.code []) (splice false (Page.indented (depth + 1) fresh [' ', '/', '*'] ++ more)) =
        read .comment (splice false more) := by
    rw [splice_append (Page.not_mem_indented (by decide) (by decide)), read_indented_fresh]
    rfl
  rw [opens]
  exact (read_comment_joined inside).1 false

end Comments

/-- Does the last line go on with the next one? -/
def joinsNext : List Char → Bool
  | [] => false
  | char :: rest => (char == '\\' && rest.all isBlank) || joinsNext rest

/-- The text is one line, and it does not take in the next one. -/
structure IsLine (text : String) : Prop where
  noFeed : '\n' ∉ text.toList
  noReturn : '\r' ∉ text.toList
  ends : joinsNext text.toList = false

instance (text : String) : Decidable (IsLine text) :=
  decidable_of_iff ('\n' ∉ text.toList ∧ '\r' ∉ text.toList ∧ joinsNext text.toList = false)
    ⟨fun ⟨noFeed, noReturn, ends⟩ => ⟨noFeed, noReturn, ends⟩,
      fun line => ⟨line.noFeed, line.noReturn, line.ends⟩⟩

theorem endsHere_append {chars : List Char} (single : '\n' ∉ chars) (rest : List Char) :
    endsHere (chars ++ '\n' :: rest) = chars.all isBlank := by
  induction chars with
  | nil => rfl
  | cons char others ih =>
      rw [List.mem_cons, not_or] at single
      rw [List.cons_append, endsHere_cons (Ne.symm single.1), ih single.2, List.all_cons]

/-- A line that does not take in the next one keeps its end. -/
theorem splice_line {chars : List Char} (single : '\n' ∉ chars) (ends : joinsNext chars = false)
    (rest : List Char) :
    splice false (chars ++ '\n' :: rest) = chars ++ '\n' :: splice false rest := by
  induction chars with
  | nil => rfl
  | cons char others ih =>
      rw [List.mem_cons, not_or] at single
      rw [joinsNext, Bool.or_eq_false_iff] at ends
      rw [List.cons_append, splice, endsHere_append single.2, ends.1, ih single.2 ends.2]
      rfl

theorem read_line {chars : List Char} (single : '\n' ∉ chars) (rest : List Char) :
    read .line (chars ++ '\n' :: rest) = read (.code []) rest := by
  induction chars with
  | nil => rfl
  | cons char others ih =>
      rw [List.mem_cons, not_or] at single
      rw [List.cons_append, read, ih single.2]
      exact fun newline => single.1 newline.symm

/-- A line behind two slashes is not read. -/
theorem reads_line {depth : Nat} {text : String} (line : IsLine text) :
    Reads depth ("// " ++ text ++ "\n") [] := by
  intro fresh rest
  have whole : ("// " ++ text ++ "\n").toList = ['/', '/'] ++ ((' ' :: text.toList) ++ ['\n']) := by
    simp
  have single : '\n' ∉ ' ' :: text.toList := by simp [line.noFeed]
  have ends : joinsNext (' ' :: text.toList) = false := by simp [joinsNext, line.ends]
  have returns : '\r' ∉ Page.indented depth fresh ("// " ++ text ++ "\n").toList := by
    apply Page.not_mem_indented (by decide)
    simp [line.noReturn]
  have begins : ∀ before, Page.begun before (' ' :: text.toList) = true :=
    Page.begun_of_plain single (List.cons_ne_nil _ _)
  rw [joined, lineFeeds_append returns, whole,
    Page.indented_append_begun depth fresh (fun _ => rfl),
    Page.indented_append_begun depth false begins, Page.indented_begun depth single,
    List.append_assoc, List.append_assoc]
  have opens (more : List Char) :
      read (.code []) (splice false (Page.indented depth fresh ['/', '/'] ++ more)) =
        read .line (splice false more) := by
    rw [splice_append (Page.not_mem_indented (by decide) (by decide)), read_indented_fresh]
    rfl
  have closes : Page.indented depth false ['\n'] ++ lineFeeds rest = '\n' :: lineFeeds rest := rfl
  rw [opens, closes, splice_line single ends, read_line single]
  rfl

end Lexer

end ThreadedCode
