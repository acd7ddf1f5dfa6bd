/-!
# Command line arguments

The command line names one input file. Options may come before or after it, and everything after a
double dash is positional. Arguments are taken from left to right, and the first that is wrong
makes the whole command line wrong. Asking for the version or for help ends the reading.
-/

namespace ThreadedCode

/-- What to compile, and how. -/
structure Options where
  /-- Path of the bytecode file. -/
  input : String
  /-- Path of the generated unit, if given. -/
  output : Option String
  /-- Namespace of the runtime, if given. -/
  runtimeNamespace : Option String
  /-- Headers to include, if any are given. -/
  includes : List String
  deriving DecidableEq, Repr

/-- What a command line asks for. -/
inductive Request where
  | version
  | help
  | compile (options : Options)
  deriving DecidableEq, Repr

namespace Arguments

/-- The options that take a value. -/
inductive OptionName where
  | output | runtimeNamespace | header
  deriving DecidableEq, Repr

/-- What a single argument is. -/
inductive Kind where
  /-- A value on its own. -/
  | positional
  /-- An option, with its value if that is in the same argument. -/
  | option (name : OptionName) (value? : Option String)
  | version
  | help
  /-- No argument of this program. -/
  | unknown
  deriving DecidableEq, Repr

/-- Splits an argument at its first equals sign. -/
def splitValue : List Char → List Char × Option (List Char)
  | [] => ([], none)
  | '=' :: value => ([], some value)
  | char :: rest =>
    let (name, value?) := splitValue rest
    (char :: name, value?)

/-- What an argument with two dashes in front is. -/
def longKind (chars : List Char) : Kind :=
  let (name, value?) := splitValue chars
  let value? := value?.map String.ofList
  match String.ofList name, value? with
  | "output", _ => .option .output value?
  | "namespace", _ => .option .runtimeNamespace value?
  | "include", _ => .option .header value?
  | "version", none => .version
  | "help", none => .help
  | _, _ => .unknown

/-- What an argument with one dash in front is. -/
def shortKind : List Char → Kind
  | ['o'] => .option .output none
  | 'o' :: '=' :: value => .option .output (some (String.ofList value))
  | 'o' :: value => .option .output (some (String.ofList value))
  | 'V' :: _ => .version
  | 'h' :: _ => .help
  | _ => .unknown

/-- What an argument is. A lone dash is a value. -/
def kind (argument : String) : Kind :=
  match argument.toList with
  | ['-'] => .positional
  | '-' :: '-' :: rest => longKind rest
  | '-' :: rest => shortKind rest
  | _ => .positional

/-- What has been given so far. -/
structure Given where
  input : Option String := none
  output : Option String := none
  runtimeNamespace : Option String := none
  includes : List String := []
  deriving DecidableEq, Repr

namespace Given

/-- Takes the input path, which must not be empty and can be given once. -/
def addInput (given : Given) (path : String) : Option Given :=
  if path.isEmpty || given.input.isSome then none else some { given with input := some path }

/-- Takes the value of an option. Only headers can be given more than once, and the output path
must not be empty. -/
def addOption (given : Given) (name : OptionName) (value : String) : Option Given :=
  match name with
  | .output =>
    if value.isEmpty || given.output.isSome then none
    else some { given with output := some value }
  | .runtimeNamespace =>
    if given.runtimeNamespace.isSome then none
    else some { given with runtimeNamespace := some value }
  | .header => some { given with includes := given.includes ++ [value] }

/-- The options once all arguments are taken. -/
def options (given : Given) : Option Options :=
  given.input.map fun input =>
    { input, output := given.output, runtimeNamespace := given.runtimeNamespace,
      includes := given.includes }

/-- Takes arguments that are all positional. -/
def addInputs (given : Given) (arguments : List String) : Option Given :=
  arguments.foldlM addInput given

end Given

/-- Reads the arguments that are left. -/
def readFrom (given : Given) : List String → Option Request
  | [] => given.options.map .compile
  | argument :: rest =>
    if argument = "--" then ((given.addInputs rest).bind Given.options).map .compile
    else
      match kind argument with
      | .positional => do readFrom (← given.addInput argument) rest
      | .option name (some value) => do readFrom (← given.addOption name value) rest
      | .option name none =>
        match rest with
        | [] => none
        | value :: rest =>
          if kind value = .positional then do readFrom (← given.addOption name value) rest
          else none
      | .version => some .version
      | .help => some .help
      | .unknown => none

/-- Reads a command line. There is no request in a wrong one. -/
def read (arguments : List String) : Option Request := readFrom {} arguments

end Arguments

end ThreadedCode
