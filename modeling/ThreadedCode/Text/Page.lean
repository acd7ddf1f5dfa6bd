/-!
# Pages of generated code

The generated code is written on a page that knows how many curly brace blocks are open and
whether a line has begun. Every line that is not empty is indented by four blanks for each open
block. Braces in the text itself are not looked at. Only the commands open and close blocks.
-/

namespace ThreadedCode

/-- What has been written so far, and where it stands. -/
structure Page where
  text : String
  /-- Number of open blocks. -/
  depth : Nat
  /-- Has the current line begun? -/
  midLine : Bool
  deriving DecidableEq, Repr

namespace Page

/-- A page with nothing on it. -/
def blank : Page := ⟨"", 0, false⟩

/-- The page with its text taken away, to be written on from where it stands. -/
def fresh (page : Page) : Page := { page with text := "" }

/-- Ways to misuse a page. -/
inductive Fault where
  /-- A block was closed though none is open. -/
  | noOpenBlock
  /-- The page ended inside a block. -/
  | openBlocksRemain
  deriving DecidableEq, Repr

/-- What the misuse was. -/
def Fault.message : Fault → String
  | .noOpenBlock => "no blocks to close"
  | .openBlocksRemain => "un-closed blocks remain"

/-- The blanks in front of a line. -/
def indentation (depth : Nat) : String := String.ofList (List.replicate (4 * depth) ' ')

/-- The lines of a text, each with its end, which only the last one may lack. The characters read
of the current line so far are given last to first. -/
def linesFrom (begun : List Char) : List Char → List (List Char)
  | [] => if begun.isEmpty then [] else [begun.reverse]
  | char :: rest =>
    if char = '\n' then (char :: begun).reverse :: linesFrom [] rest
    else linesFrom (char :: begun) rest

/-- The lines of a text. -/
def lines (text : String) : List (List Char) := linesFrom [] text.toList

/-- Puts the indentation in front of the line, unless the line has begun. -/
def indent (page : Page) : Page :=
  if page.midLine then page
  else { page with text := page.text ++ indentation page.depth, midLine := true }

/-- Writes a line or what is there of it. A line end alone does not begin a line. -/
def putLine (page : Page) (line : List Char) : Page :=
  let placed := if line = ['\n'] then page else page.indent
  { placed with
    text := placed.text ++ String.ofList line
    midLine := line.getLast? != some '\n' }

/-- Writes a text, line by line. -/
def write (page : Page) (text : String) : Page := (lines text).foldl putLine page

/-- Ends the line. -/
def newline (page : Page) : Page :=
  { page with text := page.text.push '\n', midLine := false }

/-- The things that can be done to a page. -/
inductive Command where
  /-- Writes a text. -/
  | write (text : String)
  /-- Ends the line. -/
  | newline
  /-- Opens a block, on the current line if it has begun. -/
  | openBlock
  /-- Closes a block, on a line of its own. -/
  | closeBlock
  /-- Closes a block that ends a declaration, on a line of its own. -/
  | closeDeclaration
  deriving DecidableEq, Repr

/-- Opens a block, with a blank in front of the brace if the line has begun. -/
def openBlock (page : Page) : Page :=
  let opened := page.write (if page.midLine then " \x7b\n" else "\x7b\n")
  { opened with depth := opened.depth + 1 }

/-- Closes a block with the given line, ending the current line first if it has begun. -/
def close (page : Page) (line : String) : Except Fault Page :=
  match page.depth with
  | 0 => .error .noOpenBlock
  | depth + 1 =>
    let ended := if page.midLine then page.newline else page
    .ok (write { ended with depth } line)

/-- Carries out a command. -/
def perform (page : Page) : Command → Except Fault Page
  | .write text => .ok (page.write text)
  | .newline => .ok page.newline
  | .openBlock => .ok page.openBlock
  | .closeBlock => page.close "\x7d\n"
  | .closeDeclaration => page.close "\x7d;\n"

/-- Carries out commands in order. -/
def performAll (page : Page) (commands : List Command) : Except Fault Page :=
  commands.foldlM perform page

/-- The text of a finished page, which must not end inside a block. -/
def finish (page : Page) : Except Fault String :=
  if page.depth = 0 then .ok page.text else .error .openBlocksRemain

end Page

end ThreadedCode
