import ThreadedCode.Body.Event
import ThreadedCode.Sink

/-!
# Bodies written into a sink

A pen writes on a page whose text goes to a sink of limited room. It keeps no text, only where it
stands on the page. Whatever it writes is sent piece by piece: the blanks in front of a line, block
by block, then what is there of the line. When the sink fails, so does the pen, and nothing is sent
after that.
-/

namespace ThreadedCode

/-- Where writing stands on a page whose text goes to a sink. -/
structure Pen where
  /-- Number of open blocks. -/
  depth : Nat
  /-- Has the current line begun? -/
  midLine : Bool
  /-- What the sink still takes. -/
  room : Room
  deriving DecidableEq, Repr

namespace Pen

/-- A pen where the page stands. -/
def on (page : Page) (room : Room) : Pen := ⟨page.depth, page.midLine, room⟩

/-- Sends a piece of text to the sink. If it fails, it has taken the characters that still fit. -/
def send (pen : Pen) (piece : String) : Trace Event Failure Pen :=
  match pen.room.fill piece.toList with
  | (_, some room) => do
    Trace.emit (.text piece)
    return { pen with room }
  | (taken, none) => do
    Trace.emit (.text (String.ofList taken))
    Trace.fail .sinkFull

/-- Sends the blanks in front of a line, unless the line has begun. -/
def indent (pen : Pen) : Trace Event Failure Pen :=
  if pen.midLine then return pen
  else do
    let pen ← (List.replicate pen.depth "    ").foldlM send pen
    return { pen with midLine := true }

/-- Writes a line or what is there of it. A line end alone does not begin a line. -/
def putLine (pen : Pen) (line : List Char) : Trace Event Failure Pen := do
  let pen ← if line = ['\n'] then pure pen else pen.indent
  let pen ← pen.send (String.ofList line)
  return { pen with midLine := line.getLast? != some '\n' }

/-- Writes a text, line by line. -/
def write (pen : Pen) (text : String) : Trace Event Failure Pen :=
  (Page.lines text).foldlM putLine pen

/-- Ends the line. -/
def newline (pen : Pen) : Trace Event Failure Pen := do
  let pen ← pen.send "\n"
  return { pen with midLine := false }

/-- Opens a block, with a blank in front of the brace if the line has begun. -/
def openBlock (pen : Pen) : Trace Event Failure Pen := do
  let pen ← if pen.midLine then pen.write " " else pure pen
  let pen ← pen.write "\x7b\n"
  return { pen with depth := pen.depth + 1 }

/-- Closes a block with the given line, ending the current line first if it has begun. -/
def close (pen : Pen) (line : String) : Trace Event Failure Pen :=
  match pen.depth with
  | 0 => Trace.fail (.page .noOpenBlock)
  | depth + 1 => do
    let pen ← if pen.midLine then pen.newline else pure pen
    write { pen with depth } line

/-- Carries out a command. -/
def perform (pen : Pen) : Page.Command → Trace Event Failure Pen
  | .write text => pen.write text
  | .newline => pen.newline
  | .openBlock => pen.openBlock
  | .closeBlock => pen.close "\x7d\n"
  | .closeDeclaration => pen.close "\x7d;\n"

/-- Writes an item. -/
def print (settings : Settings) (pen : Pen) : Item → Trace Event Failure Pen
  | .notice content => do
    Trace.emit (.notice content)
    return pen
  | item => (item.commands settings).foldlM perform pen

end Pen

namespace Bodies

/-- Writes the bodies of a program with a pen, for the blocks of an arena. Gives the number of
bodies and where the pen is left. -/
def generateInto (pen : Pen) (settings : Settings) (program : Program) (arena : Arena) :
    Trace Event Failure (Nat × Pen) := do
  let written := items settings program arena
  let pen ← written.emitted.foldlM (Pen.print settings) pen
  let bodies ← Trace.ofExcept (written.outcome.mapError Failure.corrupt)
  return (bodies, pen)

end Bodies

end ThreadedCode
