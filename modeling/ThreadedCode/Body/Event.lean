import ThreadedCode.Body.Item
import ThreadedCode.Failure

/-!
# The text of block bodies

Writing the items of the bodies on a page gives their text, in between the notices.
-/

namespace ThreadedCode

/-- What writing the bodies does, in order. -/
inductive Event where
  | text (content : String)
  | notice (content : Notice)
  deriving DecidableEq, Repr

namespace Event

/-- All text of the events. -/
def textOf (events : List Event) : String :=
  String.join (events.filterMap fun
    | .text content => some content
    | .notice _ => none)

/-- All notices of the events. -/
def noticesOf (events : List Event) : List Notice :=
  events.filterMap fun
    | .text _ => none
    | .notice content => some content

end Event

namespace Item

/-- The line that names a function. -/
def functionLine (name : String) : String := "// " ++ Comment.guardText name ++ "\n"

/-- How the item is written. -/
def commands (settings : Settings) : Item → List Page.Command
  | .notice _ => []
  | .label name => [.write ("\n" ++ (name.map functionLine).getD "")]
  | .header block => [.write (settings.signature block), .openBlock]
  | .line statement => [.write (statement.render settings ++ "\n")]
  | .footer => [.closeBlock]

/-- What writing an item on a page does. -/
def print (settings : Settings) (page : Page) : Item → Trace Event Page.Fault Page
  | .notice content => do
    Trace.emit (.notice content)
    return page
  | item => do
    let page ← Trace.ofExcept (page.fresh.performAll (item.commands settings))
    Trace.emit (.text page.text)
    return page

/-- What writing items on a page does. -/
def printAll (settings : Settings) (page : Page) : List Item → Trace Event Page.Fault Page
  | [] => pure page
  | item :: rest => do
    let page ← print settings page item
    printAll settings page rest

end Item

namespace Bodies

/-- Writes the bodies of a program on a page, for the blocks of an arena. Gives the number of bodies
and the page they end on. -/
def generateOn (page : Page) (settings : Settings) (program : Program) (arena : Arena) :
    Trace Event Failure (Nat × Page) := do
  let written := items settings program arena
  let page ← (Item.printAll settings page written.emitted).mapError Failure.page
  let bodies ← Trace.ofExcept (written.outcome.mapError Failure.corrupt)
  return (bodies, page)

/-- Writes the bodies of a program on a page of their own. -/
def generate (settings : Settings) (program : Program) (arena : Arena) :
    Trace Event Failure (Nat × Page) :=
  generateOn .blank settings program arena

end Bodies

end ThreadedCode
