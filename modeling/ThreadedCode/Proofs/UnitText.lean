import ThreadedCode.Proofs.PageText
import ThreadedCode.SourceUnit

/-!
# The text of a unit

The sections of a unit as plain texts. The commands of every section append exactly its text, start
and end outside of all blocks, and never fail, so a unit is its sections one after the other. The
entry point and the table stand inside braces, where it matters that their names have no line ends.
-/

namespace ThreadedCode

namespace Identifier

theorem isContinue_of_isStart {char : Char} (starts : isStart char = true) :
    isContinue char = true := by
  simp only [isStart, isContinue, Char.isAlphanum, Bool.or_eq_true] at *
  rcases starts with alpha | underscore
  · exact Or.inl (Or.inl alpha)
  · exact Or.inr underscore

theorem isContinue_of_mem {chars : List Char} (valid : isValid chars = true) {char : Char}
    (member : char ∈ chars) : isContinue char = true := by
  cases chars with
  | nil => cases member
  | cons first rest =>
      simp only [isValid, Bool.and_eq_true, List.all_eq_true] at valid
      rcases List.mem_cons.mp member with rfl | later
      · exact isContinue_of_isStart valid.1
      · exact valid.2 char later

theorem not_mem_of_not_isContinue {chars : List Char} (valid : isValid chars = true) {char : Char}
    (outside : isContinue char = false) : char ∉ chars := by
  intro member
  rw [isContinue_of_mem valid member] at outside
  cases outside

/-- Every character of a path is in one of its parts, or is a colon. -/
theorem mem_pathParts {chars : List Char} {char : Char} (member : char ∈ chars) :
    char = ':' ∨ ∃ part ∈ pathParts chars, char ∈ part := by
  fun_induction pathParts chars with
  | case1 => cases member
  | case2 rest ih =>
      simp only [List.mem_cons] at member
      rcases member with rfl | rfl | later
      · exact Or.inl rfl
      · exact Or.inl rfl
      · rcases ih later with colon | ⟨part, listed, inside⟩
        · exact Or.inl colon
        · exact Or.inr ⟨part, List.mem_cons_of_mem _ listed, inside⟩
  | case3 first rest apart empty ih =>
      rcases List.mem_cons.mp member with rfl | later
      · exact Or.inr ⟨[char], List.mem_cons_self, List.mem_cons_self⟩
      · rcases ih later with colon | ⟨part, listed, inside⟩
        · exact Or.inl colon
        · rw [empty] at listed
          cases listed
  | case4 first rest apart part parts found ih =>
      rcases List.mem_cons.mp member with rfl | later
      · exact Or.inr ⟨char :: part, List.mem_cons_self, List.mem_cons_self⟩
      · rcases ih later with colon | ⟨other, listed, inside⟩
        · exact Or.inl colon
        · rw [found] at listed
          rcases List.mem_cons.mp listed with rfl | listed
          · exact Or.inr ⟨first :: other, List.mem_cons_self, List.mem_cons_of_mem first inside⟩
          · exact Or.inr ⟨other, List.mem_cons_of_mem _ listed, inside⟩

theorem not_mem_of_isPath {chars : List Char} (path : isPath chars = true) {char : Char}
    (outside : isContinue char = false) (apart : char ≠ ':') : char ∉ chars := by
  intro member
  rcases mem_pathParts member with colon | ⟨part, listed, inside⟩
  · exact apart colon
  · have valid : isValid part = true := List.all_eq_true.mp path part listed
    exact not_mem_of_not_isContinue valid outside inside

end Identifier

namespace Settings

theorem invalidName?_eq_none_iff {settings : Settings} :
    settings.invalidName? = none ↔
      isNamespace settings.runtimeNamespace = true ∧
        ∀ name ∈ settings.identifiers, isIdentifier name = true := by
  unfold invalidName?
  by_cases path : isNamespace settings.runtimeNamespace = true
  · simp [path, List.find?_eq_none]
  · simp [path]

/-- No checked name holds a character that identifiers do not have. -/
theorem not_mem_name {settings : Settings} (valid : settings.invalidName? = none) {char : Char}
    (outside : Identifier.isContinue char = false) {name : String}
    (member : name ∈ settings.identifiers) : char ∉ name.toList :=
  Identifier.not_mem_of_not_isContinue ((invalidName?_eq_none_iff.mp valid).2 name member) outside

end Settings

theorem Identifier.isContinue_of_mem_repr {number : Nat} {char : Char}
    (member : char ∈ (toString number).toList) : isContinue char = true := by
  rw [Nat.toString_eq_repr, Nat.toList_repr] at member
  have digit := Nat.isDigit_of_mem_toDigits (by decide) (by decide) member
  simp [isContinue, Char.isAlphanum, digit]

theorem not_mem_repr {char : Char} (outside : Identifier.isContinue char = false) (number : Nat) :
    char ∉ (toString number).toList := by
  intro member
  rw [Identifier.isContinue_of_mem_repr member] at outside
  cases outside

theorem not_mem_append {char : Char} {text more : String} (first : char ∉ text.toList)
    (second : char ∉ more.toList) : char ∉ (text ++ more).toList := by
  rw [String.toList_append, List.mem_append, not_or]
  exact ⟨first, second⟩

theorem Settings.not_mem_blockName {settings : Settings} (valid : settings.invalidName? = none)
    {char : Char} (outside : Identifier.isContinue char = false) (block : Nat) :
    char ∉ (settings.blockName block).toList := by
  have start := not_mem_name valid outside
    (show settings.blockPrefix ∈ settings.identifiers by simp [identifiers])
  rw [blockName]
  exact not_mem_append start (not_mem_repr outside block)

/-- What is in none of the texts and not in the separator is not in the joined text. -/
theorem not_mem_intercalate {char : Char} {separator : String} {texts : List String}
    (outside : char ∉ separator.toList) (each : ∀ text ∈ texts, char ∉ text.toList) :
    char ∉ (separator.intercalate texts).toList := by
  induction texts with
  | nil => simp
  | cons text rest ih =>
      have first := each text List.mem_cons_self
      have others := ih fun later member => each later (List.mem_cons_of_mem text member)
      cases rest with
      | nil => simpa using first
      | cons next rest =>
          rw [String.intercalate_cons_cons]
          exact not_mem_append (not_mem_append first outside) others

/-- A word is spelled with digits, and perhaps with a sign. -/
theorem Word.not_mem_text {char : Char} (outside : Identifier.isContinue char = false)
    (unsigned : char ≠ '-') (word : Word) : char ∉ word.text.toList := by
  unfold Word.text
  cases word.toInt with
  | ofNat number => exact not_mem_repr outside number
  | negSucc number =>
      have negative : toString (Int.negSucc number) = "-" ++ toString (number + 1) := rfl
      rw [negative]
      exact not_mem_append (by simpa using unsigned) (not_mem_repr outside (number + 1))

namespace SourceUnit

/-- The includes, and the guard if there is a macro. -/
def preambleText (settings : Settings) : String :=
  String.join (settings.includes.map fun header => "#include \"" ++ header ++ "\"\n") ++ "\n"
    ++ match settings.compiledModeMacro with
      | none => ""
      | some guard =>
        "#ifndef " ++ guard ++ "\n"
          ++ ("    #error " ++ guard ++ " must be set for the entire code base.\n")
          ++ "#endif\n\n"

/-- One line for every block. -/
def declarationsText (settings : Settings) (blocks : List Nat) : String :=
  String.join (blocks.map fun block => settings.signature block ++ ";\n")

/-- The line of the table for a row. -/
def rowLine (row : List Word) : String := "    " ++ rowText row ++ "\n"

/-- The table of words in braces. -/
def tableText (settings : Settings) (words : List Word) : String :=
  "\n" ++ ("static const int " ++ settings.bytecodeTableName ++ "[] =\n") ++ "\x7b\n"
    ++ String.join ((rows settings.wordsPerLine words).map rowLine) ++ "\x7d;\n"

/-- The text in front of the brace that opens a table, on a page of the given depth. -/
def tableHead (settings : Settings) (depth : Nat) : String :=
  "\n"
    ++ (Page.indentText depth ("static const int " ++ settings.bytecodeTableName ++ "[] =") ++ "\n")
    ++ Page.indentation depth

/-- The lines of a table, on a page of the given depth. -/
def tableLines (settings : Settings) (words : List Word) (depth : Nat) : List String :=
  (rows settings.wordsPerLine words).map fun row => Page.indentation (depth + 1) ++ rowText row

/-- The text between the braces of a table, on a page of the given depth. -/
def tableInner (settings : Settings) (words : List Word) (depth : Nat) : String :=
  "\n" ++ String.join ((tableLines settings words depth).map (· ++ "\n")) ++ Page.indentation depth

/-- The statement of the entry point, which hands the first block to the runtime. -/
def entryCall (settings : Settings) (start : Nat) : String :=
  "return " ++ settings.bootstrapFunction ++ "(argc, argv, " ++ settings.blockName start ++ ", "
    ++ settings.bytecodeTableName ++ ");"

/-- The entry point. -/
def entryText (settings : Settings) (start : Nat) : String :=
  "\n" ++ "int main(int argc, char *argv[]) \x7b\n" ++ ("    " ++ entryCall settings start ++ "\n")
    ++ "\x7d\n"

/-- The line that ends the unit of a corrupt program. -/
def diagnosisText (corruption : Corruption) : String :=
  "// Corrupt bytecode starts here: " ++ corruption.message ++ "\n"

theorem appends_emptyLine : Page.Appends 0 [.write "\n"] "\n" 0 :=
  Page.appends_write_flat (Page.endsLine_newline "")

theorem preamble_appends (settings : Settings) :
    Page.Appends 0 (preamble settings) (preambleText settings) 0 := by
  have includes : Page.Appends 0
      (settings.includes.map fun header => .write ("#include \"" ++ header ++ "\"\n"))
      (String.join (settings.includes.map fun header => "#include \"" ++ header ++ "\"\n")) 0 := by
    rw [List.map_eq_flatMap]
    refine Page.appends_flatMap fun header _ => Page.appends_write_flat ?_
    exact Page.EndsLine.after (by decide) (by decide) _
  refine (includes.append appends_emptyLine).append ?_
  cases settings.compiledModeMacro with
  | none => exact Page.appends_nil 0
  | some guard =>
      have condition : Page.Appends 0 [.write ("#ifndef " ++ guard ++ "\n")]
          ("#ifndef " ++ guard ++ "\n") 0 := Page.appends_write_flat (Page.endsLine_newline _)
      have error : Page.Appends 0
          [.write ("    #error " ++ guard ++ " must be set for the entire code base.\n")]
          ("    #error " ++ guard ++ " must be set for the entire code base.\n") 0 :=
        Page.appends_write_flat (Page.EndsLine.after (by decide) (by decide) _)
      have closing : Page.Appends 0 [.write "#endif\n"] "#endif\n" 0 :=
        Page.appends_write_flat (by decide)
      exact (condition.append error).append (closing.append appends_emptyLine)

theorem declarations_appends (settings : Settings) (arena : Arena) :
    Page.Appends 0 (declarations settings arena) (declarationsText settings arena.offsets) 0 := by
  rw [declarations, List.map_eq_flatMap]
  refine Page.appends_flatMap fun block _ => Page.appends_write_flat ?_
  exact Page.EndsLine.after (by decide) (by decide) _

/-- Every row of the table has a word. -/
theorem ne_nil_of_mem_rows {width : Nat} {words row : List Word}
    (member : row ∈ rows width words) : row ≠ [] := by
  fun_induction rows width words with
  | case1 words empty => cases member
  | case2 words filled ih =>
      rcases List.mem_cons.mp member with rfl | later
      · rw [Ne, List.take_eq_nil_iff, not_or]
        exact ⟨by omega, fun empty => filled (List.isEmpty_iff.mpr empty)⟩
      · exact ih later

theorem not_mem_rowText {char : Char} (outside : Identifier.isContinue char = false)
    (apart : char ∉ ['-', ',', ' ']) (row : List Word) : char ∉ (rowText row).toList := by
  simp only [List.mem_cons, List.not_mem_nil, or_false, not_or] at apart
  apply not_mem_intercalate
  · simpa using apart.2.2
  · intro text member
    obtain ⟨word, -, rfl⟩ := List.mem_map.mp member
    rw [String.toList_append, List.mem_append, not_or]
    exact ⟨word.not_mem_text outside apart.1, by simpa using apart.2.1⟩

theorem rowText_ne_empty {row : List Word} (filled : row ≠ []) : rowText row ≠ "" := by
  cases row with
  | nil => exact absurd rfl filled
  | cons word rest =>
      cases rest <;> simp [rowText]

/-- A table is written in its place, at any depth. -/
theorem table_appends_at (settings : Settings) (words : List Word) (depth : Nat) :
    Page.Appends depth (table settings words)
      (tableHead settings depth ++ "\x7b" ++ tableInner settings words depth ++ "\x7d;" ++ "\n")
      depth := by
  have empty : Page.Appends depth [.write "\n"] "\n" depth :=
    Page.appends_write depth (Page.endsLine_newline "")
  have rows : Page.Appends (depth + 1) (tableRows settings words)
      (String.join ((tableLines settings words depth).map (· ++ "\n"))) (depth + 1) := by
    rw [tableLines, List.map_map]
    apply Page.appends_flatMap
    intro row member
    exact Page.appends_line (depth + 1) (not_mem_rowText (by decide) (by decide) row)
      (rowText_ne_empty (ne_nil_of_mem_rows member))
  have name := Page.appends_ended depth
    ("static const int " ++ settings.bytecodeTableName ++ "[] =")
  have whole := ((empty.append (name.append (Page.appends_openBlock depth))).append rows).append
    (Page.appends_closeDeclaration depth)
  simp only [tableHead, tableInner, String.append_assoc] at whole ⊢
  exact whole

theorem table_appends (settings : Settings) (words : List Word) :
    Page.Appends 0 (table settings words) (tableText settings words) 0 := by
  have whole := table_appends_at settings words 0
  have none : Page.indentation 0 = "" := rfl
  have four : Page.indentation 1 = "    " := by decide
  have head : "[] =\n" = "[] =" ++ "\n" := by decide
  have opens : "\x7b\n" = "\x7b" ++ "\n" := by decide
  have closes : "\x7d;\n" = "\x7d;" ++ "\n" := by decide
  have lines : (tableLines settings words 0).map (· ++ "\n") =
      (rows settings.wordsPerLine words).map rowLine := by
    rw [tableLines, List.map_map, four]
    rfl
  simp only [tableHead, tableInner, tableText, lines, none, Page.indentText_zero,
    String.append_assoc, String.append_empty, head, opens, closes] at whole ⊢
  exact whole

/-- The entry point calls the runtime on one line, since its names have no line ends. -/
theorem newline_not_mem_entryCall {settings : Settings} (valid : settings.invalidName? = none)
    (start : Nat) : '\n' ∉ (entryCall settings start).toList := by
  have outside : Identifier.isContinue '\n' = false := by decide
  have function := Settings.not_mem_name valid outside
    (show settings.bootstrapFunction ∈ settings.identifiers by simp [Settings.identifiers])
  have table := Settings.not_mem_name valid outside
    (show settings.bytecodeTableName ∈ settings.identifiers by simp [Settings.identifiers])
  have block := Settings.not_mem_blockName valid outside start
  unfold entryCall
  simp only [String.toList_append, List.mem_append, not_or]
  exact ⟨⟨⟨⟨⟨⟨by simp, function⟩, by simp⟩, block⟩, by simp⟩, table⟩, by simp⟩

theorem entryPoint_appends {settings : Settings} (valid : settings.invalidName? = none)
    (start : Nat) :
    Page.Appends 0 (entryPoint settings start) (entryText settings start) 0 := by
  have head : Page.Appends 0 [.write "\n", .write "int main(int argc, char *argv[])", .openBlock]
      ("\n" ++ ("int main(int argc, char *argv[])" ++ " \x7b\n")) 1 :=
    appends_emptyLine.append
      (Page.appends_head (Page.begun_parenthesis false "int main(int argc, char *argv[]"))
  have call : Page.Appends 1 [.write (entryCall settings start ++ "\n")]
      ("    " ++ entryCall settings start ++ "\n") 1 := by
    have filled : entryCall settings start ≠ "" :=
      fun empty => absurd (String.append_eq_empty_iff.mp empty).2 (by decide)
    have written := Page.appends_write 1 (Page.endsLine_newline (entryCall settings start))
    rw [Page.indentText_line 1 (newline_not_mem_entryCall valid start) filled] at written
    exact written
  have whole := (head.append call).append (Page.appends_closeBlock 0)
  rw [Page.indentText_zero] at whole
  have spelled : entryCall settings start ++ "\n" =
      "return " ++ settings.bootstrapFunction ++ "(argc, argv, " ++ settings.blockName start
        ++ ", " ++ settings.bytecodeTableName ++ ");\n" := by
    have ends : ");\n" = ");" ++ "\n" := by decide
    simp only [entryCall, ends, String.append_assoc]
  rw [spelled] at whole
  have opens : "int main(int argc, char *argv[])" ++ " \x7b\n" =
      "int main(int argc, char *argv[]) \x7b\n" := by decide
  rw [opens] at whole
  exact whole

/-- A unit is the text that its commands append. -/
theorem text_of_appends {commands : List Page.Command} {text : String}
    (appended : Page.Appends 0 commands text 0) : SourceUnit.text commands = .ok text := by
  have performed : Page.blank.performAll commands = .ok ⟨text, 0, false⟩ := by
    rw [Page.blank, appended "", String.empty_append]
  rw [SourceUnit.text, performed]
  rfl

/-- The unit of a corrupt program: the preamble, the declarations and the diagnosis. -/
theorem cutShort_eq (settings : Settings) (arena : Arena) (corruption : Corruption) :
    cutShort settings arena corruption =
      .ok ⟨preambleText settings ++ declarationsText settings arena.offsets
        ++ diagnosisText corruption, arena.size, some corruption⟩ := by
  have diagnosed : Page.Appends 0 (diagnosis corruption) (diagnosisText corruption) 0 :=
    Page.appends_write_flat (Page.endsLine_newline _)
  have whole :=
    ((preamble_appends settings).append (declarations_appends settings arena)).append diagnosed
  rw [cutShort, text_of_appends whole]
  rfl

/-- The unit of a whole program: the preamble, the declarations, an empty line, the bodies, the
table and the entry point. -/
theorem complete_eq {settings : Settings} (valid : settings.invalidName? = none) (arena : Arena)
    {bodies : String} (ends : Page.EndsLine bodies) (words : List Word) (start : Nat) :
    complete settings arena bodies words start =
      .ok ⟨preambleText settings ++ declarationsText settings arena.offsets ++ ("\n" ++ bodies)
        ++ tableText settings words ++ entryText settings start, arena.size, none⟩ := by
  have middle : Page.Appends 0 [.write "\n", .write bodies] ("\n" ++ bodies) 0 :=
    appends_emptyLine.append (Page.appends_write_flat ends)
  have whole :=
    ((((preamble_appends settings).append (declarations_appends settings arena)).append
      middle).append (table_appends settings words)).append (entryPoint_appends valid start)
  rw [complete, text_of_appends whole]
  rfl

end SourceUnit

end ThreadedCode
