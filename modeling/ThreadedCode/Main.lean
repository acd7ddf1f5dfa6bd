import ThreadedCode.CommandLine.Run

/-!
# The command line program

Carries out on real files what `CommandLine.run` says about a tree of files. Errors are logged on
the error stream as they arise.
-/

namespace ThreadedCode

namespace CommandLine

/-- Shows the notices that are errors. -/
def report (notices : List Notice) : IO Unit :=
  (Notice.logged .error notices).forM fun notice =>
    IO.eprintln ("[" ++ notice.level.name ++ "] " ++ notice.text)

/-- The fault that has a number. The system may give the number negated. -/
def faultOfNumber? (number : UInt32) : Option FileFault :=
  [.notFound, .notADirectory, .isADirectory, .nameTooLong].find? fun (fault : FileFault) =>
    fault.code == number.toInt32.toInt.natAbs

/-- The fault behind an error of the system. -/
def faultOf? : IO.Error → Option FileFault
  | .noFileOrDirectory _ number _ => faultOfNumber? number
  | .inappropriateType _ number _ => faultOfNumber? number
  | .invalidArgument _ number _ => faultOfNumber? number
  | _ => none

/-- Shows an error of the system. -/
def reportSystemError (error : IO.Error) : IO Unit :=
  match faultOf? error with
  | some fault => IO.eprintln (RunError.file fault).message
  | none => IO.eprintln ("Error: IoError(" ++ toString error ++ ")")

/-- Does a job on real files and gives the exit status. -/
def perform (job : Job) : IO UInt32 := do
  let bytes ← IO.FS.readBinFile job.input
  let compiled := job.compile bytes.toList
  report compiled.emitted
  match compiled.outcome with
  | .error error =>
    IO.eprintln error.message
    return 1
  | .ok source =>
    IO.FS.writeFile job.output source
    return 0

/-- Does what the options ask for on real files. -/
def performOptions (options : Options) : IO UInt32 := do
  match options.job with
  | .error failure =>
    IO.eprintln (RunError.failed failure).message
    return 1
  | .ok job =>
    try
      perform job
    catch error =>
      reportSystemError error
      return 1

end CommandLine

end ThreadedCode

/-- Runs the command line program. -/
def main (arguments : List String) : IO UInt32 := do
  match ThreadedCode.Arguments.read arguments with
  | none =>
    IO.eprint ThreadedCode.CommandLine.usage
    return 2
  | some .version =>
    IO.print ThreadedCode.CommandLine.versionLine
    return 0
  | some .help =>
    IO.print ThreadedCode.CommandLine.usage
    return 0
  | some (.compile options) => ThreadedCode.CommandLine.performOptions options
