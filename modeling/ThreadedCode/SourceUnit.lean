import ThreadedCode.Body.Event
import ThreadedCode.Codec.LittleEndian

/-!
# Source units

The generated unit: includes and a guard, a declaration for every block, the bodies, the stored
bytes as a table of words, and the entry point that starts the first block. A corrupt program
gives a unit that ends after the declarations with a comment that says why.
-/

namespace ThreadedCode

/-- A compiled program. -/
structure Compilation where
  /-- The generated unit. -/
  source : String
  /-- Number of blocks declared. -/
  blocks : Nat
  /-- What the compilation stopped at, if it did. -/
  corruption? : Option Corruption
  deriving DecidableEq, Repr

/-- Is the generated unit a whole program? -/
def Compilation.isUsable (compilation : Compilation) : Bool := compilation.corruption?.isNone

namespace SourceUnit

/-- The includes, and the guard against compiling without the macro. -/
def preamble (settings : Settings) : List Page.Command :=
  settings.includes.map (fun header => .write ("#include \"" ++ header ++ "\"\n"))
    ++ [.write "\n"]
    ++ match settings.compiledModeMacro with
      | none => []
      | some guard =>
        [.write ("#ifndef " ++ guard ++ "\n"),
          .write ("    #error " ++ guard ++ " must be set for the entire code base.\n"),
          .write "#endif\n", .write "\n"]

/-- The declarations of all blocks. -/
def declarations (settings : Settings) (arena : Arena) : List Page.Command :=
  arena.offsets.map fun block => .write (settings.signature block ++ ";\n")

/-- Cuts words into rows of the given width, where zero counts as one. -/
def rows (width : Nat) (words : List Word) : List (List Word) :=
  if words.isEmpty then []
  else words.take (max width 1) :: rows width (words.drop (max width 1))
termination_by words.length
decreasing_by
  cases words with
  | nil => simp_all
  | cons word rest => simp only [List.length_drop, List.length_cons]; omega

/-- A row of the table. -/
def rowText (row : List Word) : String := " ".intercalate (row.map fun word => word.text ++ ",")

/-- The rows of the table between its braces. -/
def tableRows (settings : Settings) (words : List Word) : List Page.Command :=
  (rows settings.wordsPerLine words).flatMap fun row => [.write (rowText row), .newline]

/-- The table of the stored bytes. -/
def table (settings : Settings) (words : List Word) : List Page.Command :=
  [.write "\n", .write ("static const int " ++ settings.bytecodeTableName ++ "[] ="), .newline,
    .openBlock]
    ++ tableRows settings words ++ [.closeDeclaration]

/-- The entry point. -/
def entryPoint (settings : Settings) (start : Nat) : List Page.Command :=
  [.write "\n", .write "int main(int argc, char *argv[])", .openBlock,
    .write ("return " ++ settings.bootstrapFunction ++ "(argc, argv, " ++ settings.blockName start
      ++ ", " ++ settings.bytecodeTableName ++ ");\n"),
    .closeBlock]

/-- The comment that ends the unit of a corrupt program. -/
def diagnosis (corruption : Corruption) : List Page.Command :=
  [.write ("// Corrupt bytecode starts here: " ++ corruption.message ++ "\n")]

/-- The text of a unit. -/
def text (commands : List Page.Command) : Except Failure String :=
  ((Page.blank.performAll commands).bind Page.finish).mapError Failure.page

/-- The unit of a corrupt program. -/
def cutShort (settings : Settings) (arena : Arena) (corruption : Corruption) :
    Except Failure Compilation := do
  let source ←
    text (preamble settings ++ declarations settings arena ++ diagnosis corruption)
  return ⟨source, arena.size, some corruption⟩

/-- The unit of a program whose bodies are written. -/
def complete (settings : Settings) (arena : Arena) (bodies : String) (words : List Word)
    (start : Nat) : Except Failure Compilation := do
  let source ←
    text (preamble settings ++ declarations settings arena ++ [.write "\n", .write bodies]
      ++ table settings words ++ entryPoint settings start)
  return ⟨source, arena.size, none⟩

/-- Checks that every declared block has its body, and that no body was left open. -/
def checkBodies (arena : Arena) (bodies : Nat) (page : Page) : Except Failure Unit :=
  if bodies = arena.size then (page.finish.mapError Failure.page).map fun _ => ()
  else .error (.bodyCount arena.size bodies)

/-- Compiles a program whose scan was clean. -/
def ofScan (settings : Settings) (program : Program) (arena : Arena) (start : Nat) :
    Trace Notice Failure Compilation := do
  let generated := Bodies.generate settings program arena
  Trace.emitAll (Event.noticesOf generated.emitted)
  match generated.outcome with
  | .error (.corrupt corruption) => do
    Trace.emit (.corruptOperand corruption)
    Trace.ofExcept (cutShort settings arena corruption)
  | .error failure => Trace.fail failure
  | .ok (bodies, page) => do
    Trace.ofExcept (checkBodies arena bodies page)
    let words := LittleEndian.words program.raw
    Trace.emit (.embedding words.length)
    let compilation ←
      Trace.ofExcept (complete settings arena (Event.textOf generated.emitted) words start)
    Trace.emit (.compiled arena.size start)
    return compilation

end SourceUnit

/-- Compiles a program. A corrupt program has a unit too, which says so. -/
def compile (settings : Settings) (program : Program) : Trace Notice Failure Compilation :=
  match settings.invalidName? with
  | some name => Trace.fail (.invalidIdentifier name)
  | none => do
    let (scan, notices) := Scan.ofProgram program
    Trace.emitAll notices
    match scan.start?, scan.corruption? with
    | some start, none => SourceUnit.ofScan settings program scan.arena start
    | _, corruption? =>
      Trace.ofExcept (SourceUnit.cutShort settings scan.arena
        (corruption?.getD .missingEntryJump))

end ThreadedCode
