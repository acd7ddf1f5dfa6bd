import ThreadedCode.Codec.Reader
import ThreadedCode.CommandLine.FileTree
import ThreadedCode.Failure
import ThreadedCode.Text.Quoted

/-!
# Errors of a run

The errors that end a run of the command line, and the messages that tell them with every detail.
-/

namespace ThreadedCode

/-- A list of bytes in decimal. -/
def byteList (bytes : Bytes) : String :=
  "[" ++ ", ".intercalate (bytes.map fun byte => toString byte.toNat) ++ "]"

namespace Utf8

/-- The fault with every field spelled out. -/
def Fault.record (fault : Fault) : String :=
  "Utf8Error \x7b valid_up_to: " ++ toString fault.validUpTo ++ ", error_len: "
    ++ (match fault.length? with
      | some length => "Some(" ++ toString length ++ ")"
      | none => "None")
    ++ " \x7d"

end Utf8

namespace ReadError

/-- The error with every field spelled out. -/
def record : ReadError → String
  | .badMagic found => "BadMagic(" ++ byteList found ++ ")"
  | .unsupportedVersion version => "UnsupportedVersion(" ++ toString version.toNat ++ ")"
  | .unexpectedEnd => "UnexpectedEof"
  | .invalidUtf8 stored =>
    "InvalidUtf8(FromUtf8Error \x7b bytes: " ++ byteList stored ++ ", error: "
      ++ (Utf8.fault stored).record ++ " \x7d)"
  | .sourceFailed => "IoError(reader failed)"

end ReadError

namespace FileFault

/-- The number of the fault. -/
def code : FileFault → Nat
  | .notFound => 2
  | .notADirectory => 20
  | .isADirectory => 21
  | .nameTooLong => 36

/-- The name of the fault. -/
def kind : FileFault → String
  | .notFound => "NotFound"
  | .notADirectory => "NotADirectory"
  | .isADirectory => "IsADirectory"
  | .nameTooLong => "InvalidFilename"

/-- The fault in words. -/
def message : FileFault → String
  | .notFound => "No such file or directory"
  | .notADirectory => "Not a directory"
  | .isADirectory => "Is a directory"
  | .nameTooLong => "File name too long"

/-- The fault with every field spelled out. -/
def record (fault : FileFault) : String :=
  "Os \x7b code: " ++ toString fault.code ++ ", kind: " ++ fault.kind ++ ", message: "
    ++ Quoted.quote fault.message ++ " \x7d"

end FileFault

namespace Failure

/-- The failure with every field spelled out. -/
def record : Failure → String
  | .invalidIdentifier name => "InvalidIdentifier(" ++ Quoted.quote name ++ ")"
  | .corrupt corruption => "CorruptBytecode(" ++ corruption.record ++ ")"
  | .sinkFull => "Format(Error)"
  | .page fault => fault.message
  | .bodyCount declared written =>
    toString declared ++ " blocks declared, " ++ toString written ++ " bodies written"

end Failure

/-- What ended a run. -/
inductive RunError where
  /-- The input is no bytecode file. -/
  | unreadable (error : ReadError)
  /-- A file cannot be read or written. -/
  | file (fault : FileFault)
  /-- The program cannot be compiled. -/
  | failed (failure : Failure)
  deriving DecidableEq, Repr

namespace RunError

/-- The message that tells the error. -/
def message : RunError → String
  | .unreadable error => "Error: Bytecode(" ++ error.record ++ ")"
  | .file fault => "Error: IoError(" ++ fault.record ++ ")"
  | .failed failure => "Error: " ++ failure.record

end RunError

end ThreadedCode
