import ThreadedCode.CommandLine.Arguments
import ThreadedCode.CommandLine.Error
import ThreadedCode.Image.Basic
import ThreadedCode.SourceUnit

/-!
# Runs of the command line

A run reads one bytecode file, compiles the program in it and writes one unit. Nothing is written
unless the whole program was compiled.
-/

namespace ThreadedCode

/-- What to read, how to compile it, and where to write the unit. -/
structure Job where
  settings : Settings
  input : String
  output : String
  deriving DecidableEq, Repr

namespace Options

/-- The settings that the options ask for. Given headers replace the usual ones. -/
def settings (options : Options) : Except Failure Settings := do
  let named ← match options.runtimeNamespace with
    | none => .ok {}
    | some text =>
      match (Settings.setNamespace text).run {} with
      | .ok _ settings => .ok settings
      | .error failure _ => .error failure
  return if options.includes.isEmpty then named else { named with includes := options.includes }

/-- The job that the options ask for. The unit goes beside the input unless told otherwise. -/
def job (options : Options) : Except Failure Job := do
  let settings ← options.settings
  return {
    settings
    input := options.input
    output := options.output.getD (Path.withExtension options.input "cpp") }

end Options

/-- The files and the notices of a run, as far as it has come. -/
structure RunState where
  tree : FileTree
  notices : List Notice
  deriving DecidableEq, Repr

/-- A step of a run. If it fails, the files it has written and the notices it has left remain. -/
abbrev Run := EStateM RunError RunState

namespace Run

/-- Leaves a notice. -/
def log (notice : Notice) : Run Unit :=
  modify fun state => { state with notices := state.notices ++ [notice] }

/-- Leaves what a trace emitted, and ends as it does. -/
def ofTrace {α : Type} (trace : Trace Notice RunError α) : Run α := fun state =>
  let after := { state with notices := state.notices ++ trace.emitted }
  match trace.outcome with
  | .ok value => .ok value after
  | .error error => .error error after

/-- Reads the file at a path. -/
def readFile (path : String) : Run Bytes := fun state =>
  match state.tree.read path with
  | .ok content => .ok content state
  | .error fault => .error (.file fault) state

/-- Writes the file at a path. -/
def writeFile (path : String) (content : Bytes) : Run Unit := fun state =>
  match state.tree.write path content with
  | .ok tree => .ok () { state with tree }
  | .error fault => .error (.file fault) state

end Run

namespace Job

/-- Compiles the bytes of the input. -/
def compile (job : Job) (bytes : Bytes) : Trace Notice RunError String := do
  let image ← (Image.parse bytes).mapError RunError.unreadable
  let compilation ←
    (ThreadedCode.compile job.settings image.program).mapError RunError.failed
  match compilation.corruption? with
  | some corruption => do
    Trace.emit (.stopped job.input corruption)
    Trace.fail (.failed (.corrupt corruption))
  | none => do
    Trace.emit (.writing compilation.blocks job.output)
    return compilation.source

/-- Does the job. -/
def run (job : Job) : Run Unit := do
  Run.log (.reading job.input)
  let bytes ← Run.readFile job.input
  let source ← Run.ofTrace (job.compile bytes)
  Run.writeFile job.output (Utf8.encode source)

end Job

namespace CommandLine

/-- The line that tells the version. -/
def versionLine : String := "Bytecode to C++ converter 0.1.0\n"

/-- How to call the program, in one line. It is what help prints here, and not an account of what
the options do. -/
def usage : String :=
  "Usage: [-o FILE] [--namespace NAMESPACE] [--include HEADER]... INPUT\n"

/-- How a run ended. -/
structure Outcome where
  /-- The exit status: 0 for success, 1 for an error, 2 for a wrong command line. -/
  exit : Nat
  stdout : String
  /-- What the error was. -/
  message : Option String
  /-- The files afterwards. -/
  tree : FileTree
  notices : List Notice
  deriving DecidableEq, Repr

/-- Does what the options ask for. -/
def execute (options : Options) : Run Unit := do
  let job ← Run.ofTrace (Trace.ofExcept (options.job.mapError RunError.failed))
  job.run

/-- Runs a command line. -/
def run (arguments : List String) (tree : FileTree) : Outcome :=
  match Arguments.read arguments with
  | none => { exit := 2, stdout := "", message := none, tree, notices := [] }
  | some .version => { exit := 0, stdout := versionLine, message := none, tree, notices := [] }
  | some .help => { exit := 0, stdout := usage, message := none, tree, notices := [] }
  | some (.compile options) =>
    match execute options ⟨tree, []⟩ with
    | .ok _ ⟨tree, notices⟩ => { exit := 0, stdout := "", message := none, tree, notices }
    | .error error ⟨tree, notices⟩ =>
      { exit := 1, stdout := "", message := some error.message, tree, notices }

end CommandLine

end ThreadedCode
