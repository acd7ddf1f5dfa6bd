import ThreadedCode.Body.Event
import ThreadedCode.Proofs.BodyWalk
import ThreadedCode.Proofs.PageText

/-!
# The definitions of the bodies

The items of a walk are a flat list. Here they are put together to the definitions of blocks and the
labels between them, each with its text. Items that are properly nested print without a fault, and
what they print is the text of their parts, one after the other.
-/

namespace ThreadedCode

/-- The text of a label: an empty line, and the name of the function that starts here. -/
def Item.labelText (name : Option String) : String := "\n" ++ (name.map functionLine).getD ""

/-- The line of a statement inside the braces of a definition. -/
def Statement.line (settings : Settings) (statement : Statement) : String :=
  Page.indentText 1 (statement.render settings ++ "\n")

/-- A line of a definition. -/
inductive BodyLine where
  | label (name : Option String)
  | statement (content : Statement)
  deriving DecidableEq, Repr

/-- The text of the line, inside the braces of its definition. -/
def BodyLine.text (settings : Settings) : BodyLine → String
  | .label name => Page.indentText 1 (Item.labelText name)
  | .statement content => content.line settings

/-- The statement of the line, if it is no label. -/
def BodyLine.statement? : BodyLine → Option Statement
  | .label _ => none
  | .statement content => some content

/-- The definition of a block. -/
structure Definition where
  block : Nat
  lines : List BodyLine
  deriving DecidableEq, Repr

namespace Definition

/-- The statements of the definition in order. -/
def statements (definition : Definition) : List Statement :=
  definition.lines.filterMap BodyLine.statement?

/-- The text of the definition: the signature of its block, and its lines in braces. -/
def text (settings : Settings) (definition : Definition) : String :=
  settings.signature definition.block ++ " \x7b\n"
    ++ String.join (definition.lines.map (BodyLine.text settings)) ++ "\x7d\n"

end Definition

/-- A part of the bodies. -/
inductive Part where
  | label (name : Option String)
  | definition (content : Definition)
  deriving DecidableEq, Repr

namespace Part

def text (settings : Settings) : Part → String
  | .label name => Item.labelText name
  | .definition content => content.text settings

/-- The definition that the part is, if it is no label. -/
def definition? : Part → Option Definition
  | .label _ => none
  | .definition content => some content

end Part

namespace Bodies

/-- The lines up to the end of the body. -/
def lines : List Item → List BodyLine
  | [] | .footer :: _ | .header _ :: _ => []
  | .notice _ :: rest => lines rest
  | .label name :: rest => .label name :: lines rest
  | .line statement :: rest => .statement statement :: lines rest

/-- The parts that the items make up, given whether a body is open in front of them, whose lines
are left out then. -/
def parts : Bool → List Item → List Part
  | _, [] => []
  | inside, .notice _ :: rest | inside, .line _ :: rest => parts inside rest
  | false, .label name :: rest => .label name :: parts false rest
  | true, .label _ :: rest => parts true rest
  | _, .header block :: rest => .definition ⟨block, lines rest⟩ :: parts true rest
  | _, .footer :: rest => parts false rest

/-- The definitions that the items make up. -/
def definitions : List Item → List Definition
  | [] => []
  | .header block :: rest => ⟨block, lines rest⟩ :: definitions rest
  | .notice _ :: rest | .label _ :: rest | .line _ :: rest | .footer :: rest => definitions rest

end Bodies

/-- The parts of the bodies that a program is compiled to. -/
def Program.parts (program : Program) (settings : Settings) : List Part :=
  Bodies.parts false (Bodies.items settings program program.scan.arena).emitted

/-- The definitions that a program is compiled to. -/
def Program.definitions (program : Program) (settings : Settings) : List Definition :=
  (program.parts settings).filterMap Part.definition?

namespace Item

/-- The text of an item, given whether a body is open in front of it. -/
def text (settings : Settings) (inside : Bool) : Item → String
  | .notice _ => ""
  | .label name => Page.indentText inside.toNat (labelText name)
  | .header block => settings.signature block ++ " \x7b\n"
  | .line statement => statement.line settings
  | .footer => "\x7d\n"

theorem labelText_ne_empty (name : Option String) : labelText name ≠ "" :=
  fun empty => absurd (String.append_eq_empty_iff.mp empty).1 (by decide)

theorem labelText_endsLine (name : Option String) : Page.EndsLine (labelText name) := by
  refine Page.EndsLine.append (Page.endsLine_newline "") ?_
  cases name with
  | none => exact Page.endsLine_empty
  | some name => exact Page.endsLine_newline _

/-- The signature of a block leaves its line open. -/
theorem signature_begins (settings : Settings) (block : Nat) (before : Bool) :
    Page.begun before (settings.signature block).toList = true := by
  unfold Settings.signature
  exact Page.begun_parenthesis before _

theorem text_endsLine (settings : Settings) (inside : Bool) (item : Item) :
    Page.EndsLine (item.text settings inside) := by
  cases item with
  | notice content => exact Page.endsLine_empty
  | label name => exact (labelText_endsLine name).indentText _
  | header block => exact Page.EndsLine.after (by decide) (by decide) _
  | line statement => exact (Page.endsLine_newline _).indentText 1
  | footer => exact Page.endsLine_newline "\x7d"

/-- The page is inside or outside of a body, where bodies have the given depth. Only outside of them
a line may have begun. -/
def At (depth : Nat) (page : Page) (inside : Bool) : Prop :=
  page.depth = depth + inside.toNat ∧ (inside = true → page.midLine = false)

/-- An item in its place is written whole, at any depth of the bodies. -/
theorem performAll_commands (settings : Settings) {depth : Nat} {page : Page} {inside after : Bool}
    {item : Item} (place : At depth page inside)
    (nested : Bodies.nesting inside [item] = some after)
    (written : ∀ content, item ≠ .notice content) :
    page.performAll (item.commands settings) =
      .ok ⟨page.text ++ Page.inlineText depth page.midLine (item.text settings inside),
        depth + after.toNat, false⟩ := by
  obtain ⟨text, blocks, midLine⟩ := page
  obtain ⟨rfl, line⟩ := place
  -- what is written inside of a body has one more block around it
  have inner : ∀ {lines : String}, Page.EndsLine lines → lines ≠ "" → inside = true →
      Page.performAll ⟨text, depth + inside.toNat, midLine⟩ [.write lines] =
        .ok ⟨text ++ Page.inlineText depth midLine (Page.indentText inside.toNat lines),
          depth + inside.toNat, false⟩ := by
    intro lines ends filled isOpen
    cases line isOpen
    rw [Page.inlineText_indentText]
    exact Page.performAll_write _ ends filled
  cases item with
  | notice content => exact absurd rfl (written content)
  | label name =>
      cases nested
      cases inside with
      | true => exact inner (labelText_endsLine name) (labelText_ne_empty name) rfl
      | false =>
          rw [Item.text, Bool.toNat_false, Page.indentText_zero]
          exact Page.performAll_write _ (labelText_endsLine name) (labelText_ne_empty name)
  | header block =>
      cases inside <;> cases nested
      exact Page.performAll_head _ (signature_begins settings block midLine)
  | line statement =>
      cases inside <;> cases nested
      exact inner (Page.endsLine_newline _) (Page.newline_ne_empty _) rfl
  | footer =>
      cases inside <;> cases nested
      cases line rfl
      exact Page.appends_closeBlock depth text

theorem textOf_single (text : String) : Event.textOf [.text text] = text := by
  simp [Event.textOf]

/-- An item that is no notice is printed by its commands. -/
theorem print_of_ok {settings : Settings} {page behind : Page} {item : Item}
    (written : ∀ content, item ≠ .notice content)
    (performed : page.fresh.performAll (item.commands settings) = .ok behind) :
    print settings page item = ⟨[.text behind.text], .ok behind⟩ := by
  rw [print, performed]
  · rfl
  · exact written

/-- An item that is one text is printed as the page takes the text. -/
theorem print_of_write {settings : Settings} (page : Page) {item : Item} {text : String}
    (command : item.commands settings = [.write text]) (ends : Page.EndsLine text)
    (filled : text ≠ "") :
    print settings page item =
      ⟨[.text (Page.inlineText page.depth page.midLine text)],
        .ok ⟨Page.inlineText page.depth page.midLine text, page.depth, false⟩⟩ := by
  have performed : page.fresh.performAll (item.commands settings) =
      .ok ⟨Page.inlineText page.depth page.midLine text, page.depth, false⟩ := by
    rw [command, Page.performAll_write page.fresh ends filled, Page.fresh, String.empty_append]
  apply print_of_ok _ performed
  rintro content rfl
  cases command

theorem text_ne_empty (settings : Settings) (inside : Bool) {item : Item}
    (written : ∀ content, item ≠ .notice content) : item.text settings inside ≠ "" := by
  cases item with
  | notice content => exact absurd rfl (written content)
  | label name => exact Page.indentText_ne_empty (labelText_ne_empty name) _
  | header block =>
      exact fun empty => absurd (String.append_eq_empty_iff.mp empty).2 (by decide)
  | line statement => exact Page.indentText_ne_empty (Page.newline_ne_empty _) 1
  | footer => exact Page.newline_ne_empty "\x7d"

/-- Printing an item in its place comes to the place behind it. What is printed is the text of the
item, and what follows begins where the item has ended. -/
theorem print_nested (settings : Settings) {depth : Nat} {page : Page} {inside after : Bool}
    {item : Item} (place : At depth page inside)
    (nested : Bodies.nesting inside [item] = some after) :
    ∃ behind, (print settings page item).outcome = .ok behind ∧ At depth behind after ∧
      ∀ more, Page.inlineText depth page.midLine (item.text settings inside ++ more) =
        Event.textOf (print settings page item).emitted
          ++ Page.inlineText depth behind.midLine more := by
  by_cases notice : ∃ content, item = .notice content
  · obtain ⟨content, rfl⟩ := notice
    cases nested
    refine ⟨page, rfl, place, fun more => ?_⟩
    rw [Item.text, String.empty_append]
    exact String.empty_append.symm
  · have written : ∀ content, item ≠ .notice content := fun content same => notice ⟨content, same⟩
    have fresh : At depth page.fresh inside := place
    have performed := performAll_commands settings fresh nested written
    rw [print_of_ok written performed]
    refine ⟨_, rfl, ⟨rfl, fun _ => rfl⟩, fun more => ?_⟩
    rw [textOf_single, Page.inlineText_append depth _ (item.text_endsLine settings inside)
      (item.text_ne_empty settings inside written)]
    exact congrArg (· ++ _) String.empty_append.symm

end Item

namespace Bodies

/-- The text of the items, given whether a body is open in front of them. -/
def text (settings : Settings) : Bool → List Item → String
  | _, [] => ""
  | inside, item :: rest =>
    item.text settings inside ++ text settings ((nesting inside [item]).getD inside) rest

/-- Nesting is followed one item at a time. -/
theorem nesting_cons {inside final : Bool} {item : Item} {rest : List Item}
    (nested : nesting inside (item :: rest) = some final) :
    ∃ after, nesting inside [item] = some after ∧ nesting after rest = some final := by
  rw [← List.singleton_append, nesting_append] at nested
  exact Option.bind_eq_some_iff.mp nested

/-- Items in place print without a fault, and give their text. -/
theorem printAll_nested (settings : Settings) {depth : Nat} {page : Page} {inside final : Bool}
    {items : List Item} (place : Item.At depth page inside)
    (nested : nesting inside items = some final) :
    (∃ behind, (Item.printAll settings page items).outcome = .ok behind ∧
        Item.At depth behind final) ∧
      Event.textOf (Item.printAll settings page items).emitted =
        Page.inlineText depth page.midLine (text settings inside items) := by
  induction items generalizing page inside with
  | nil =>
      cases nested
      exact ⟨⟨page, rfl, place⟩, rfl⟩
  | cons item rest ih =>
      obtain ⟨after, first, others⟩ := nesting_cons nested
      obtain ⟨behind, printed, stands, written⟩ := Item.print_nested settings place first
      obtain ⟨ended, more⟩ := ih stands others
      rw [Item.printAll, Trace.bind_of_ok printed]
      refine ⟨ended, ?_⟩
      rw [text, first, Option.getD_some, written, ← more]
      simp only [Event.textOf, List.filterMap_append, String.join_append]

/-- The text of nested items is the text of their parts. A body that is open in front of them is
finished first. -/
theorem text_eq_parts (settings : Settings) {inside : Bool} {items : List Item}
    (nested : nesting inside items = some false) :
    text settings inside items =
      (if inside then String.join ((lines items).map (BodyLine.text settings)) ++ "\x7d\n" else "")
        ++ String.join ((parts inside items).map (Part.text settings)) := by
  induction items generalizing inside with
  | nil =>
      cases nested
      rfl
  | cons item rest ih =>
      obtain ⟨after, first, others⟩ := nesting_cons nested
      rw [text, first, Option.getD_some, ih others]
      cases item <;> cases inside <;> cases first <;>
        simp [Item.text, lines, parts, BodyLine.text, Part.text, Definition.text,
          String.append_assoc]

/-- The definitions among the parts do not depend on whether a body is open in front. -/
theorem parts_definitions (inside : Bool) (items : List Item) :
    (parts inside items).filterMap Part.definition? = definitions items := by
  induction items generalizing inside with
  | nil => rfl
  | cons item rest ih =>
      cases item <;> cases inside <;>
        simp [parts, definitions, List.filterMap_cons, Part.definition?, ih]

/-- Every body that is opened is a definition. -/
theorem definitions_blocks (items : List Item) :
    (definitions items).map Definition.block = opened items := by
  induction items with
  | nil => rfl
  | cons item rest ih => cases item <;> simp [definitions, opened, Item.opens?] <;> exact ih

theorem definitions_start (notice : Notice) (block : Nat) (items : List Item) :
    definitions ([.notice notice, .header block] ++ items) =
      ⟨block, lines items⟩ :: definitions items := rfl

/-- Items that open no body have no part in what is defined behind them. -/
theorem definitions_append {items : List Item} (plain : opened items = []) (more : List Item) :
    definitions (items ++ more) = definitions more := by
  induction items with
  | nil => rfl
  | cons item rest ih =>
      cases item with
      | header block => simp [opened, Item.opens?] at plain
      | notice _ | label _ | line _ | footer => exact ih plain

end Bodies

end ThreadedCode
