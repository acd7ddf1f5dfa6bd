import ThreadedCode.Proofs.Compilation
import ThreadedCode.Proofs.Notes

/-!
# The labels of functions

Where a function starts, its name is put on a line of its own behind two slashes. The name is
guarded against ending a block comment, but the comment it stands in ends with its line. So a name
stays inside of the comment exactly if it is one line. Every further line of a name is a line of
the unit.
-/

namespace ThreadedCode

theorem Comment.count_newline_guardChars (chars : List Char) :
    (guardChars chars).count '\n' = chars.count '\n' := by
  fun_induction guardChars chars with
  | case1 rest ih => simp [ih]
  | case2 char rest _ ih => rw [List.count_cons, List.count_cons, ih]
  | case3 => rfl

theorem Comment.count_newline_guardText (text : String) :
    (guardText text).toList.count '\n' = text.toList.count '\n' := by
  rw [guardText, String.toList_ofList, count_newline_guardChars]

/-- Indentation neither ends lines nor joins them. -/
theorem Page.count_newline_indented (depth : Nat) (fresh : Bool) (chars : List Char) :
    (indented depth fresh chars).count '\n' = chars.count '\n' := by
  induction chars generalizing fresh with
  | nil => rfl
  | cons char rest ih =>
      by_cases ends : char = '\n'
      · simp [indented, ends, ih]
      · cases fresh <;> simp [indented, ends, ih, List.count_replicate]

namespace Item

/-- The text of the label of a function, on a page of the given depth. -/
def labelOn (depth : Nat) (name : String) : String :=
  "\n" ++ Page.indentText depth (functionLine name)

/-- A label is written in the same way wherever the page stands. -/
theorem print_label (settings : Settings) (page : Page) (name : String) :
    print settings page (.label (some name)) =
      ⟨[.text (labelOn page.depth name)], .ok ⟨labelOn page.depth name, page.depth, false⟩⟩ := by
  have written : Page.inlineText page.depth page.midLine (labelText (some name)) =
      labelOn page.depth name :=
    Page.inlineText_append page.depth page.midLine (Page.endsLine_newline "") (by decide) _
  rw [print_of_write page rfl (labelText_endsLine (some name)) (labelText_ne_empty (some name)),
    written]

theorem count_newline_labelOn (depth : Nat) (name : String) :
    (labelOn depth name).toList.count '\n' = 2 + name.toList.count '\n' := by
  have line : (functionLine name).toList.count '\n' = name.toList.count '\n' + 1 := by
    simp only [functionLine, String.toList_append, List.count_append,
      Comment.count_newline_guardText]
    exact congrArg (· + 1) (Nat.zero_add _)
  have indented : (Page.indentText depth (functionLine name)).toList.count '\n' =
      name.toList.count '\n' + 1 := by
    rw [Page.indentText, String.toList_ofList, Page.count_newline_indented, line]
  have first : "\n".toList.count '\n' = 1 := by decide
  rw [labelOn, String.toList_append, List.count_append, indented, first]
  omega

/-- The label is one line of comment exactly if the name is one line. -/
theorem labelOn_line_iff (depth : Nat) (name : String) :
    (∃ line, '\n' ∉ line.toList ∧
        labelOn depth name = "\n" ++ (Page.indentation depth ++ ("// " ++ line) ++ "\n")) ↔
      '\n' ∉ name.toList := by
  constructor
  · rintro ⟨line, whole, same⟩
    have counted := count_newline_labelOn depth name
    have blanks : (Page.indentation depth).toList.count '\n' = 0 := by
      simp [Page.indentation, List.count_replicate]
    have slashes : "// ".toList.count '\n' = 0 := by decide
    have newline : "\n".toList.count '\n' = 1 := by decide
    simp only [same, String.toList_append, List.count_append, blanks, slashes, newline,
      List.count_eq_zero.mpr whole] at counted
    exact List.count_eq_zero.mp (by omega)
  · intro single
    have whole : '\n' ∉ (Comment.guardText name).toList := by
      rw [← List.count_eq_zero, Comment.count_newline_guardText]
      exact List.count_eq_zero.mpr single
    refine ⟨Comment.guardText name, whole, congrArg ("\n" ++ ·) ?_⟩
    apply Page.indentText_line
    · exact not_mem_append (by decide) whole
    · intro empty
      exact absurd (String.append_eq_empty_iff.mp empty).1 (by decide)

theorem printAll_append (settings : Settings) (page : Page) (front back : List Item) :
    printAll settings page (front ++ back) =
      printAll settings page front >>= fun between => printAll settings between back := by
  induction front generalizing page with
  | nil => rfl
  | cons item rest ih =>
      rw [List.cons_append, printAll, printAll, Trace.bind_assoc]
      simp only [ih]

end Item

/-- Every label that is emitted belongs to a function that starts at a visit. -/
theorem Bodies.Emitted.function {settings : Settings} {program : Program} {arena : Arena}
    {visits : List Visit} {name : Option String}
    (emitted : Emitted settings program arena visits (.label name)) :
    ∃ visit ∈ visits, visit.opcode = .funStart ∧ program.functionAt visit.offset = name := by
  cases emitted with
  | @label visit listed starts => exact ⟨visit, listed, starts, rfl⟩

/-- A label is the name of a function that starts at its offset, and is written as a text of its
own, with two line ends more than the name has. It is an empty line and one line of comment exactly
if the name is one line. -/
theorem label_in_comment_iff (page : Page) {settings : Settings} {program : Program} {arena : Arena}
    {front back : List Item} {name : String}
    (emitted : (Bodies.items settings program arena).emitted =
      front ++ .label (some name) :: back) :
    (∃ visit ∈ (Listing.ofCode program.code).visits,
        visit.opcode = .funStart ∧ program.functionAt visit.offset = some name) ∧
      ∃ (between : Page) (text : String),
        (Item.printAll settings page front).outcome = .ok between ∧
        (Bodies.generateOn page settings program arena).emitted =
          (Item.printAll settings page front).emitted
            ++ .text text :: (Item.printAll settings ⟨text, between.depth, false⟩ back).emitted ∧
        text.toList.count '\n' = 2 + name.toList.count '\n' ∧
        ((∃ line, '\n' ∉ line.toList ∧
            text = "\n" ++ (Page.indentation between.depth ++ ("// " ++ line) ++ "\n")) ↔
          '\n' ∉ name.toList) := by
  constructor
  · have member : Item.label (some name) ∈ (Bodies.items settings program arena).emitted := by
      rw [emitted]
      exact List.mem_append_right front List.mem_cons_self
    exact (Bodies.emitted_of_mem_items member).function
  · obtain ⟨inside, nested, -⟩ := Bodies.items_nesting settings program arena
    have place : Item.At page.depth page false := ⟨rfl, nofun⟩
    obtain ⟨⟨_, printed, -⟩, -⟩ := Bodies.printAll_nested settings place nested
    rw [emitted, Bodies.nesting_append] at nested
    obtain ⟨after, first, -⟩ := Option.bind_eq_some_iff.mp nested
    obtain ⟨⟨between, reached, -⟩, -⟩ := Bodies.printAll_nested settings place first
    refine ⟨between, Item.labelOn between.depth name, reached, ?_,
      Item.count_newline_labelOn between.depth name, Item.labelOn_line_iff between.depth name⟩
    rw [Bodies.generateOn_of_printed settings program arena printed, emitted,
      Item.printAll_append, Trace.bind_of_ok reached, Item.printAll, Item.print_label]
    rfl

/-- Two functions with names of one line, the second one inside of a block. -/
def twoFunctions : Program :=
  { Program.bare #[90, 2, 76, 0, 0, 0, 76, 0, 0, 0, 98] (· == 2) [] with
    functionAt := fun offset => if offset = 2 then some "first" else some "second */" }

theorem label_in_comment_iff_twoFunctions :
    ∃ front back,
      (Bodies.items {} twoFunctions twoFunctions.scan.arena).emitted =
        front ++ .label (some "second */") :: back ∧
      ∃ (between : Page) (text : String),
        (Item.printAll {} .blank front).outcome = .ok between ∧
        (Bodies.generateOn .blank {} twoFunctions twoFunctions.scan.arena).emitted =
          (Item.printAll {} .blank front).emitted
            ++ .text text :: (Item.printAll {} ⟨text, between.depth, false⟩ back).emitted ∧
        text.toList.count '\n' = 2 ∧
        ∃ line, '\n' ∉ line.toList ∧
          text = "\n" ++ (Page.indentation between.depth ++ ("// " ++ line) ++ "\n") := by
  have member : Item.label (some "second */") ∈
      (Bodies.items {} twoFunctions twoFunctions.scan.arena).emitted := List.elem_iff.mp (by cbv)
  obtain ⟨front, back, emitted⟩ := List.append_of_mem member
  obtain ⟨-, between, text, reached, written, counted, inside⟩ :=
    label_in_comment_iff .blank emitted
  exact ⟨front, back, emitted, between, text, reached, written, counted, inside.mpr (by decide)⟩

/-- A function whose name has a second line. -/
def twoLineName : Program :=
  { Program.bare #[90, 2, 76, 0, 0, 0, 98] (· == 2) [] with
    functionAt := fun offset => if offset = 2 then some "f\nint stray;" else none }

/-- The second line of the name is a declaration in the unit. -/
theorem label_leaves_comment_twoLineName :
    ∃ compilation, (compile {} twoLineName).outcome = .ok compilation ∧
      compilation.isUsable = true ∧
      (Bodies.items {} twoLineName twoLineName.scan.arena).emitted.head? =
        some (.label (some "f\nint stray;")) ∧
      ∃ before after, compilation.source = before ++ ("\n// f\nint stray;\n" ++ after) := by
  have clean : twoLineName.Clean 2 := ⟨by decide, by cbv⟩
  have written : (Bodies.items {} twoLineName twoLineName.scan.arena).outcome = .ok 1 := by cbv
  have compiled := compile_of_written Settings.default_valid clean written
  obtain ⟨rest, emitted⟩ : ∃ rest,
      (Bodies.items {} twoLineName twoLineName.scan.arena).emitted =
        .label (some "f\nint stray;") :: rest := ⟨_, by cbv⟩
  obtain ⟨definition, parts⟩ : ∃ definition,
      Bodies.parts false (Bodies.items {} twoLineName twoLineName.scan.arena).emitted =
        [.label (some "f\nint stray;"), .definition definition] := ⟨_, by cbv⟩
  have label : Part.text {} (.label (some "f\nint stray;")) = "\n// f\nint stray;\n" := by decide
  have front (first second third rest : String) :
      first ++ (second ++ (third ++ rest)) = first ++ (second ++ third) ++ rest := by
    simp only [String.append_assoc]
  refine ⟨_, compiled, rfl, by rw [emitted, List.head?_cons], ?_⟩
  rw [SourceUnit.wholeUnit, Bodies.partsText, parts, List.map_cons, label, String.join_cons]
  simp only [String.append_assoc]
  exact ⟨_, _, front _ _ _ _⟩

end ThreadedCode
