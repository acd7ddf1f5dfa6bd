import ThreadedCode.Proofs.BlockStatements
import ThreadedCode.Proofs.FunctionLabels
import ThreadedCode.Proofs.InstructionMeaning

/-!
# Reading the bodies back

The text of the bodies is read whole, with the labels and notes in it. If every name that is shown
stays inside of its comment, then labels are not read at all, and the definitions are read as
routines in their order, each under the name of its block and with the clauses of its statements.
-/

namespace ThreadedCode

open Lexer

namespace Comment

theorem mem_of_mem_guardChars {chars : List Char} {char : Char}
    (member : char ∈ guardChars chars) : char = ' ' ∨ char ∈ chars := by
  fun_induction guardChars chars with
  | case1 rest ih =>
      simp only [List.mem_cons] at member ⊢
      rcases member with star | blank | slash | inside
      · exact Or.inr (Or.inl star)
      · exact Or.inl blank
      · exact Or.inr (Or.inr (Or.inl slash))
      · exact (ih inside).imp_right fun found => Or.inr (Or.inr found)
  | case2 other rest _ ih =>
      rcases List.mem_cons.mp member with same | inside
      · exact Or.inr (List.mem_cons.mpr (Or.inl same))
      · exact (ih inside).imp_right (List.mem_cons_of_mem other)
  | case3 => cases member

theorem all_isBlank_guardChars (chars : List Char) :
    (guardChars chars).all isBlank = chars.all isBlank := by
  fun_induction guardChars chars with
  | case1 rest ih => rfl
  | case2 char rest _ ih => rw [List.all_cons, List.all_cons, ih]
  | case3 => rfl

theorem joinsNext_guardChars (chars : List Char) :
    joinsNext (guardChars chars) = joinsNext chars := by
  fun_induction guardChars chars with
  | case1 rest ih => exact ih
  | case2 char rest _ ih => rw [joinsNext, joinsNext, all_isBlank_guardChars, ih]
  | case3 => rfl

/-- A line is one line when it is guarded. -/
theorem isLine_guardText {text : String} (line : IsLine text) : IsLine (guardText text) := by
  have outside {char : Char} (filled : char ≠ ' ') (absent : char ∉ text.toList) :
      char ∉ (guardText text).toList := by
    rw [guardText, String.toList_ofList]
    exact fun member => (mem_of_mem_guardChars member).elim filled absent
  constructor
  · exact outside (by decide) line.noFeed
  · exact outside (by decide) line.noReturn
  · rw [guardText, String.toList_ofList, joinsNext_guardChars, line.ends]

end Comment

/-- The label of a function is not read if its name is one line. -/
theorem reads_label {depth : Nat} {name : Option String}
    (line : ∀ text, name = some text → IsLine text) : Reads depth (Item.labelText name) [] := by
  have newline : Reads depth "\n" [] := IsClosed.reads (by decide)
  cases name with
  | none => exact newline.append reads_empty
  | some text => exact newline.append (reads_line (Comment.isLine_guardText (line text rfl)))

/-- Nothing of the line but its statement is read. -/
def BodyLine.Readable : BodyLine → Prop
  | .label name => ∀ text, name = some text → IsLine text
  | .statement content => content.Guarded ∧ content.Unreturned

namespace BodyLine

theorem readable_label {name : String} (line : IsLine name) : (label (some name)).Readable := by
  rintro _ ⟨rfl⟩
  exact line

theorem readable_unnoted {handler : HandlerCall} (unnoted : handler.note = none) :
    (statement (.call handler)).Readable := by
  refine ⟨HandlerCall.guarded_of_note_eq_none unnoted, fun text noted => ?_⟩
  rw [unnoted] at noted
  cases noted

end BodyLine

/-- Nothing of the part but its statements is read, apart from the frame of a definition. -/
def Part.Readable : Part → Prop
  | .label name => ∀ text, name = some text → IsLine text
  | .definition content => ∀ line ∈ content.lines, line.Readable

namespace Definition

/-- The routine that a definition is read as. -/
def routine (settings : Settings) (definition : Definition) : Routine :=
  ⟨settings.blockName definition.block, definition.statements.map Statement.clauses⟩

/-- The lexemes of a definition. -/
def lexemes (settings : Settings) (definition : Definition) : List String :=
  Routine.headLexemes settings definition.block ++ ["\x7b"]
    ++ definition.statements.flatMap (Statement.lexemes settings) ++ ["\x7d"]

end Definition

section Reading

variable {settings : Settings} (valid : settings.invalidName? = none)
include valid

theorem reads_lines {lines : List BodyLine} (readable : ∀ line ∈ lines, line.Readable) :
    Reads 0 (String.join (lines.map (BodyLine.text settings)))
      ((lines.filterMap BodyLine.statement?).flatMap (Statement.lexemes settings)) := by
  induction lines with
  | nil => exact reads_empty
  | cons line rest ih =>
      rw [List.forall_mem_cons] at readable
      have others := ih readable.2
      rw [List.map_cons, String.join_cons]
      cases line with
      | label name => exact (reads_label readable.1).indentText.append others
      | statement content =>
          have newline : Reads 1 "\n" [] := IsClosed.reads (by decide)
          have text := (reads_statement valid readable.1.1 readable.1.2).append newline
          rw [List.append_nil] at text
          exact text.indentText.append others

theorem reads_head (block : Nat) :
    Reads 0 (settings.signature block ++ " \x7b\n")
      (Routine.headLexemes settings block ++ ["\x7b"]) := by
  have static : Reads 0 "static void *" ["static", "void", "*"] := IsClosed.reads (by decide)
  have opens : Reads 0 "(" ["("] := IsClosed.reads (by decide)
  have reference : Reads 0 " &" ["&"] := IsClosed.reads (by decide)
  have closes : Reads 0 ")" [")"] := IsClosed.reads (by decide)
  have brace : Reads 0 " \x7b\n" ["\x7b"] := IsClosed.reads (by decide)
  have name : ReadsApart 0 _ _ := (Settings.isWord_blockName valid block).reads
  have type : ReadsApart 0 settings.qualifiedContextType _ :=
    readsApart_lexemes (Settings.isPlain_qualified valid (by simp [Settings.identifiers]))
  have parameter : ReadsApart 0 settings.contextParam _ :=
    (Settings.isWord_of_mem valid (by simp [Settings.identifiers])).reads
  have all := ((((((static.append_apart name).append (by decide) opens).append_apart type).append
    (by decide) reference).append_apart parameter).append (by decide) closes).append brace
  simp only [Routine.headLexemes, List.append_assoc, List.cons_append, List.nil_append] at all ⊢
  exact all

theorem reads_definition {definition : Definition}
    (readable : ∀ line ∈ definition.lines, line.Readable) :
    Reads 0 (definition.text settings) (definition.lexemes settings) := by
  have closes : Reads 0 "\x7d\n" ["\x7d"] := IsClosed.reads (by decide)
  exact ((reads_head valid definition.block).append (reads_lines valid readable)).append closes

/-- The definitions among the parts are all that is read. -/
theorem reads_parts {parts : List Part} (readable : ∀ part ∈ parts, part.Readable) :
    Reads 0 (String.join (parts.map (Part.text settings)))
      ((parts.filterMap Part.definition?).flatMap (Definition.lexemes settings)) := by
  induction parts with
  | nil => exact reads_empty
  | cons part rest ih =>
      rw [List.forall_mem_cons] at readable
      have others := ih readable.2
      rw [List.map_cons, String.join_cons]
      cases part with
      | label name => exact (reads_label readable.1).append others
      | definition content => exact (reads_definition valid readable.1).append others

/-- Statements are taken in one by one. -/
theorem leads_statements (statements : List Statement) (routines : List Routine) (name : String)
    (before : List (List Clause)) :
    Routine.Leads settings ⟨routines, .inside name before none []⟩
      (statements.flatMap (Statement.lexemes settings))
      ⟨routines, .inside name (before ++ statements.map Statement.clauses) none []⟩ := by
  induction statements generalizing before with
  | nil =>
      rw [List.map_nil, List.append_nil]
      exact Routine.leads_nil _ _
  | cons statement rest ih =>
      have others := ih (before ++ [statement.clauses])
      rw [List.append_assoc, List.singleton_append] at others
      rw [List.flatMap_cons, List.map_cons]
      exact (leads_statement valid statement routines name before).append others

/-- A definition is taken in as its routine. -/
theorem leads_definition (definition : Definition) (routines : List Routine) :
    Routine.Leads settings ⟨routines, .outside []⟩ (definition.lexemes settings)
      ⟨routines ++ [definition.routine settings], .outside []⟩ := by
  have body := leads_statements valid definition.statements routines
    (settings.blockName definition.block) []
  have closes : Routine.step settings
      ⟨routines, .inside (settings.blockName definition.block)
        (definition.statements.map Statement.clauses) none []⟩ "\x7d" =
      some ⟨routines ++ [definition.routine settings], .outside []⟩ := rfl
  exact ((Routine.leads_head valid definition.block).append body).append
    (Routine.leads_single closes)

theorem leads_definitions (definitions : List Definition) (routines : List Routine) :
    Routine.Leads settings ⟨routines, .outside []⟩
      (definitions.flatMap (Definition.lexemes settings))
      ⟨routines ++ definitions.map (Definition.routine settings), .outside []⟩ := by
  induction definitions generalizing routines with
  | nil =>
      rw [List.map_nil, List.append_nil]
      exact Routine.leads_nil _ _
  | cons definition rest ih =>
      have others := ih (routines ++ [definition.routine settings])
      rw [List.append_assoc, List.singleton_append] at others
      rw [List.flatMap_cons, List.map_cons]
      exact (leads_definition valid definition routines).append others

/-- Parts are read as the routines of their definitions. -/
theorem readAll?_parts {parts : List Part} (readable : ∀ part ∈ parts, part.Readable) :
    Routine.readAll? settings (String.join (parts.map (Part.text settings))) =
      some ((parts.filterMap Part.definition?).map (Definition.routine settings)) := by
  have found := lexemes_of_reads (reads_parts valid readable).apart
  have leads := leads_definitions valid (parts.filterMap Part.definition?) []
  rw [Routine.Leads, List.nil_append] at leads
  simp only [Routine.readAll?, found, leads, Option.bind_eq_bind, Option.bind_some, if_true]

end Reading

/-- The item that a line of a definition is written for. -/
def BodyLine.item : BodyLine → Item
  | .label name => .label name
  | .statement content => .line content

/-- The items that a part is written for, apart from the frame of a definition. -/
def Part.items : Part → List Item
  | .label name => [.label name]
  | .definition content => content.lines.map BodyLine.item

namespace Bodies

theorem items_lines_subset (items : List Item) : (lines items).map BodyLine.item ⊆ items := by
  fun_induction lines items with
  | case1 | case2 | case3 => exact List.nil_subset _
  | case4 notice rest ih => exact List.Subset.trans ih (List.subset_cons_self _ _)
  | case5 name rest ih | case6 content rest ih => exact List.cons_subset_cons _ ih

theorem items_subset_of_mem_parts {inside : Bool} {items : List Item} {part : Part}
    (member : part ∈ parts inside items) : part.items ⊆ items := by
  induction items generalizing inside with
  | nil => cases inside <;> cases member
  | cons item rest ih =>
      have later {within : Bool} (member : part ∈ parts within rest) :
          part.items ⊆ item :: rest :=
        List.Subset.trans (ih member) (List.subset_cons_self _ _)
      cases item with
      | notice _ | line _ | footer => cases inside <;> exact later member
      | label name =>
          cases inside with
          | true => exact later member
          | false =>
              rcases List.mem_cons.mp member with rfl | member
              · exact List.cons_subset_cons _ (List.nil_subset _)
              · exact later member
      | header block =>
          have split : part = .definition ⟨block, lines rest⟩ ∨ part ∈ parts true rest := by
            cases inside <;> exact List.mem_cons.mp member
          rcases split with rfl | member
          · exact List.Subset.trans (items_lines_subset rest) (List.subset_cons_self _ _)
          · exact later member

end Bodies

/-- The names that the code of a program shows stay inside of their comments. A function has a name
of one line, which does not take in the next line, and a carriage return ends no line of a note. -/
structure Program.NamesInside (program : Program) : Prop where
  labels : ∀ instruction ∈ program.instructions, instruction.opcode = .funStart →
    ∀ name, program.functionAt instruction.offset = some name → IsLine name
  notes : ∀ instruction ∈ program.instructions, ∀ text,
    Lowering.note program instruction.opcode (instruction.operands program.code) = some text →
      '\r' ∉ text.toList

/-- A program whose only names are those at labels shows no others. -/
theorem Program.namesInside_labelled (code : Array Word) (splits : Nat → Bool) (raw : Bytes)
    {functionAt : Nat → Option String}
    (lines : ∀ offset name, functionAt offset = some name → IsLine name) :
    { Program.bare code splits raw with functionAt := functionAt }.NamesInside := by
  refine ⟨fun instruction _ _ name => lines instruction.offset name, ?_⟩
  intro instruction _ text noted
  unfold Lowering.note at noted
  cases caption : instruction.opcode.caption <;> simp [caption, Program.bare] at noted

theorem Program.namesInside_bare (code : Array Word) (splits : Nat → Bool) (raw : Bytes) :
    (Program.bare code splits raw).NamesInside :=
  namesInside_labelled code splits raw nofun

namespace Program.Clean

variable {settings : Settings} {program : Program} {start count : Nat}
  (clean : program.Clean start) (inside : program.NamesInside)
include clean inside

/-- The name at a label is one line. -/
theorem isLine_of_label {name : Option String}
    (member : .label name ∈ (Bodies.items settings program program.scan.arena).emitted)
    {text : String} (named : name = some text) : IsLine text := by
  obtain ⟨visit, listed, starts, found⟩ := (Bodies.emitted_of_mem_items member).function
  have all : (Listing.ofCode program.code).visits =
      program.instructions.map fun instruction => ⟨instruction.offset, instruction.opcode⟩ := by
    rw [Listing.visits, clean.complete]
    rfl
  rw [all] at listed
  obtain ⟨instruction, within, rfl⟩ := List.mem_map.mp listed
  exact inside.labels instruction within starts text (found.trans named)

variable (written : (Bodies.items settings program program.scan.arena).outcome = .ok count)
include written

theorem readable_statement {definition : Definition}
    (member : definition ∈ program.definitions settings) {statement : Statement}
    (listed : statement ∈ definition.statements) :
    statement.Guarded ∧ statement.Unreturned := by
  rcases (clean.lowers_definition written member).cases_mem listed with
    ⟨instruction, within, lowered⟩ | ⟨last, rfl⟩
  · exact ⟨Lowering.statement_guarded lowered, Lowering.statement_unreturned lowered
      (inside.notes instruction (mem_of_mem_blockInstructions within))⟩
  · unfold Bodies.closingStatement
    cases Machine.fallOff program.code last <;> exact ⟨trivial, trivial⟩

theorem readable_part {part : Part} (member : part ∈ program.parts settings) : part.Readable := by
  have items := Bodies.items_subset_of_mem_parts member
  cases part with
  | label name =>
      intro text named
      exact clean.isLine_of_label inside (items List.mem_cons_self) named
  | definition content =>
      intro line listed
      cases line with
      | label name =>
          intro text named
          exact clean.isLine_of_label inside (items (List.mem_map_of_mem listed)) named
      | statement statement =>
          have defined : content ∈ program.definitions settings :=
            List.mem_filterMap.mpr ⟨_, member, rfl⟩
          exact clean.readable_statement inside written defined
            (List.mem_filterMap.mpr ⟨_, listed, rfl⟩)

/-- The bodies of a program whose names stay inside are read as the routines of its definitions. -/
theorem readAll?_bodies (valid : settings.invalidName? = none) :
    Routine.readAll? settings (String.join ((program.parts settings).map (Part.text settings))) =
      some ((program.definitions settings).map (Definition.routine settings)) :=
  readAll?_parts valid fun _ member => clean.readable_part inside written member

end Program.Clean

/-- A block that pops a value and then starts a function of the given name. -/
def innerFunction (name : String) : Program :=
  { Program.bare #[90, 2, 20, 76, 0, 0, 0, 98] (· == 2) [] with
    functionAt := fun offset => if offset = 3 then some name else none }

namespace InnerFunction

/-- The lines of the block, with the given ones where the function starts. -/
def lines (label : List BodyLine) : List BodyLine :=
  .statement (.call ⟨.pop, [], none, none, none, .stay⟩) :: label
    ++ [.statement (.call ⟨.funStart, [0, 0, 0], none, none, none, .stay⟩),
      .statement (.call ⟨.exit, [], none, none, none, .stay⟩), .statement .halt]

variable (name : String)

theorem clean : (innerFunction name).Clean 2 := ⟨rfl, by cbv⟩

theorem offsets : (innerFunction name).scan.arena.offsets = [2] := by cbv

theorem written :
    (Bodies.items {} (innerFunction name) (innerFunction name).scan.arena).outcome = .ok 1 := by
  cbv

theorem parts :
    (innerFunction name).parts {} = [.definition ⟨2, lines [.label (some name)]⟩] := by cbv

variable {name}

theorem namesInside (line : IsLine name) : (innerFunction name).NamesInside := by
  refine Program.namesInside_labelled _ _ _ fun offset text named => ?_
  split at named <;> cases named
  exact line

/-- A name that goes on with a statement after its first line puts the statement into the block. -/
theorem readAll?_bodies {statement : Statement}
    (label : BodyLine.text {} (.label (some name)) =
      BodyLine.text {} (.label (some "f")) ++ BodyLine.text {} (.statement statement))
    (inside : statement.Guarded ∧ statement.Unreturned) :
    Routine.readAll? {} (String.join (((innerFunction name).parts {}).map (Part.text {}))) =
      some [⟨"block2", [[.call .pop false none], statement.clauses,
        [.words [0, 0, 0], .call .funStart true none], [.call .exit false none],
        [.leave .null]]⟩] := by
  have text : [Part.definition ⟨2, lines [.label (some name)]⟩].map (Part.text {}) =
      [Part.definition ⟨2, lines [.label (some "f"), .statement statement]⟩].map
        (Part.text {}) := by
    simp only [Part.text, Definition.text, lines, List.cons_append, List.nil_append, List.map_cons,
      String.join_cons, label, String.append_assoc]
  have readable :
      (Part.definition ⟨2, lines [.label (some "f"), .statement statement]⟩).Readable := by
    simp only [Part.Readable, lines, List.cons_append, List.nil_append, List.forall_mem_cons]
    exact ⟨BodyLine.readable_unnoted rfl, BodyLine.readable_label (by decide), inside,
      BodyLine.readable_unnoted rfl, BodyLine.readable_unnoted rfl, ⟨trivial, trivial⟩,
      List.forall_mem_nil _⟩
  have block : ({} : Settings).blockName 2 = "block2" := by decide
  rw [parts, text, readAll?_parts Settings.default_valid (List.forall_mem_singleton.mpr readable)]
  simp only [List.filterMap_cons, Part.definition?, List.filterMap_nil, List.map_singleton,
    Definition.routine, block]
  rfl

end InnerFunction

end ThreadedCode
