import ThreadedCode.Proofs.Clauses

/-!
# Routines of generated code

The bodies of a unit are read whole, lexeme by lexeme, as a sequence of routines. A routine is a
name and the clauses of its statements. Whatever is not read as part of a routine makes the bodies
unreadable, and nothing but a comment goes unread.

A routine that was read is executed in a scope. A name stands for what was declared innermost, so
the array of operand words can hide the runtime state and the runtime state can hide a block. A
clause whose names stand for something else has no meaning, and neither has a routine that uses a
keyword as a name.
-/

namespace ThreadedCode

/-- A function of generated code, with the clauses of each of its statements. -/
structure Routine where
  name : String
  statements : List (List Clause)
  deriving DecidableEq, Repr

namespace Routine

/-- Where a reader of lexemes stands. -/
inductive Place where
  /-- Outside of routines, with the lexemes since the last one. -/
  | outside (head : List String)
  /-- In a routine, with its name and the statements before. If braces are open, there are the
  clauses before in them. Last are the lexemes of the clause that was begun. -/
  | inside (name : String) (statements : List (List Clause)) (braces : Option (List Clause))
      (begun : List String)
  deriving DecidableEq, Repr

/-- The routines read so far, and where the reader stands. -/
structure Progress where
  routines : List Routine
  place : Place
  deriving DecidableEq, Repr

/-- The name in the head of a routine, which has the signature of a block. -/
def head? (settings : Settings) : List String → Option String
  | "static" :: "void" :: "*" :: name :: "(" :: rest =>
    if rest = Lexer.lexemes settings.qualifiedContextType ++ ["&", settings.contextParam, ")"] then
      some name
    else none
  | _ => none

/-- Where the reader of a routine goes on after a lexeme. An array is declared in braces only. -/
def stepInside (settings : Settings) (routines : List Routine) (name : String)
    (statements : List (List Clause)) :
    Option (List Clause) → List String → String → Option Progress
  | none, [], "\x7b" => some ⟨routines, .inside name statements (some []) []⟩
  | none, [], "\x7d" => some ⟨routines ++ [⟨name, statements⟩], .outside []⟩
  | some clauses, [], "\x7d" => some ⟨routines, .inside name (statements ++ [clauses]) none []⟩
  | none, begun, ";" => do
    let clause ← Clause.clause? settings begun
    if clause.declares then none
    else some ⟨routines, .inside name (statements ++ [[clause]]) none []⟩
  | some clauses, begun, ";" => do
    let clause ← Clause.clause? settings begun
    some ⟨routines, .inside name statements (some (clauses ++ [clause])) []⟩
  | braces, begun, lexeme => some ⟨routines, .inside name statements braces (begun ++ [lexeme])⟩

/-- Where the reader goes on after a lexeme. -/
def step (settings : Settings) (progress : Progress) (lexeme : String) : Option Progress :=
  match progress.place with
  | .outside head =>
    if lexeme = "\x7b" then
      (head? settings head).map fun name => ⟨progress.routines, .inside name [] none []⟩
    else some ⟨progress.routines, .outside (head ++ [lexeme])⟩
  | .inside name statements braces begun =>
    stepInside settings progress.routines name statements braces begun lexeme

/-- All routines of a text, if there is nothing else in it. -/
def readAll? (settings : Settings) (text : String) : Option (List Routine) := do
  let final ← (Lexer.lexemes text).foldlM (step settings) ⟨[], .outside []⟩
  if final.place = .outside [] then some final.routines else none

/-- The blocks that a routine names. -/
def references (routine : Routine) : List Nat :=
  routine.statements.flatten.flatMap Clause.references

end Routine

/-- What a local name stands for. -/
inductive Entity where
  /-- The runtime state. -/
  | context
  /-- An array of operand words. -/
  | words (content : List Word)
  /-- An array of blocks. -/
  | table (blocks : List Nat)
  deriving DecidableEq, Repr

/-- The local names that are declared, the innermost one first. -/
abbrev Scope := List (String × Entity)

namespace Scope

/-- At the beginning of a statement only the runtime state is declared. -/
def outermost (settings : Settings) : Scope := [(settings.contextParam, .context)]

/-- Does the name of the runtime state stand for it? -/
def hasContext (settings : Settings) (scope : Scope) : Bool :=
  scope.lookup settings.contextParam == some .context

/-- Does the name of the block stand for it? -/
def seesBlock (settings : Settings) (scope : Scope) (block : Nat) : Bool :=
  (scope.lookup (settings.blockName block)).isNone

/-- The array of operand words. -/
def words? (scope : Scope) : Option (List Word) :=
  match scope.lookup "args" with
  | some (.words content) => some content
  | _ => none

/-- The array of blocks. -/
def table? (scope : Scope) : Option (List Nat) :=
  match scope.lookup "mmtable" with
  | some (.table blocks) => some blocks
  | _ => none

end Scope

/-- The block that a value stands for, or null. -/
def Value.read (reply : Reply) : Value → Option Nat
  | .null => none
  | .block target => some target
  | .slot => reply.slot

/-- Does the condition hold? -/
def Condition.holds (reply : Reply) : Condition → Bool
  | .handler _ => reply.holds
  | .slot => reply.slot.isSome

namespace Clause

/-- Does the clause use the runtime state? -/
def usesContext : Clause → Bool
  | .words _ | .table _ | .leave .null | .leave (.block _) => false
  | .storeTable | .storeBlock _ | .call .. | .leave .slot | .leaveIf .. => true

/-- Do the names in the clause stand for what it means? -/
def isSeen (settings : Settings) (scope : Scope) (clause : Clause) : Bool :=
  (!clause.usesContext || scope.hasContext settings)
    && clause.references.all (scope.seesBlock settings)

/-- The scope after a clause. -/
def declare (scope : Scope) : Clause → Scope
  | .words content => ("args", .words content) :: scope
  | .table blocks => ("mmtable", .table blocks) :: scope
  | _ => scope

/-- What executing a clause does, unless it uses an array that is not there. -/
def effects (scope : Scope) : Clause → Option (List Action)
  | .storeTable => scope.table?.map fun blocks => [.store (.dispatch blocks)]
  | .storeBlock block => some [.store (.resume block)]
  | .call opcode true continuation =>
    scope.words?.map fun words => [.call opcode (some words) continuation]
  | .call opcode false continuation => some [.call opcode none continuation]
  | .leaveIf (.handler opcode) _ => some [.test opcode]
  | .words _ | .table _ | .leave _ | .leaveIf .slot _ => some []

/-- What executing a clause does, if it has a meaning. -/
def actions (settings : Settings) (scope : Scope) (clause : Clause) : Option (List Action) :=
  if clause.isSeen settings scope then clause.effects scope else none

/-- Where control goes after a clause. -/
def course (reply : Reply) : Clause → Course
  | .leave value => .leaves (value.read reply)
  | .leaveIf condition value =>
    if condition.holds reply then .leaves (value.read reply) else .onward
  | _ => .onward

/-- Executes clauses in order, which gives all actions and where control goes. -/
def run (settings : Settings) (oracle : Oracle) :
    List Clause → Scope → List Action → Option (List Action × Course)
  | [], _, history => some (history, .onward)
  | clause :: rest, scope, history => do
    let history := history ++ (← clause.actions settings scope)
    match clause.course (oracle history) with
    | .leaves target => return (history, .leaves target)
    | .onward => run settings oracle rest (clause.declare scope) history

/-- Executes statements in order. Gives all actions and the returned value, if the statements
return at all. -/
def runAll (settings : Settings) (oracle : Oracle) :
    List (List Clause) → List Action → Option (List Action × Option Nat)
  | [], _ => none
  | clauses :: rest, history => do
    match ← run settings oracle clauses (Scope.outermost settings) history with
    | (history, .leaves target) => return (history, target)
    | (history, .onward) => runAll settings oracle rest history

end Clause

/-- The words that are no names. -/
def keywords : List String :=
  ["alignas", "alignof", "and", "and_eq", "asm", "auto", "bitand", "bitor", "bool", "break", "case",
    "catch", "char", "char8_t", "char16_t", "char32_t", "class", "co_await", "co_return",
    "co_yield", "compl", "concept", "const", "const_cast", "consteval", "constexpr", "constinit",
    "continue", "decltype", "default", "delete", "do", "double", "dynamic_cast", "else", "enum",
    "explicit", "export", "extern", "false", "float", "for", "friend", "goto", "if", "inline",
    "int", "long", "mutable", "namespace", "new", "noexcept", "not", "not_eq", "nullptr",
    "operator", "or", "or_eq", "private", "protected", "public", "register", "reinterpret_cast",
    "requires", "return", "short", "signed", "sizeof", "static", "static_assert", "static_cast",
    "struct", "switch", "template", "this", "thread_local", "throw", "true", "try", "typedef",
    "typeid", "typename", "union", "unsigned", "using", "virtual", "void", "volatile", "wchar_t",
    "while", "xor", "xor_eq"]

namespace Settings

/-- The names that the bodies use as they are given. Those of blocks and handlers are longer than
what is given, and no keyword ends with a number or holds a capital letter. -/
def bodyNames (settings : Settings) : List String :=
  Lexer.lexemes settings.runtimeNamespace
    ++ [settings.contextType, settings.contextParam, settings.blockType,
      settings.nextCallTargetSlot, settings.nextTableSlot]

/-- No name of the settings is a keyword, and the runtime state neither hides a block nor is hidden
by an array. -/
structure Unambiguous (settings : Settings) : Prop where
  noKeyword : ∀ name ∈ settings.bodyNames, name ∉ keywords
  notWords : settings.contextParam ≠ "args"
  notTable : settings.contextParam ≠ "mmtable"
  noBlock : settings.blockNamed? settings.contextParam = none

end Settings

/-- Executes a routine, which gives all actions and the returned value. -/
def Routine.run (settings : Settings) (oracle : Oracle) (routine : Routine) :
    Option (List Action × Option Nat) :=
  if settings.bodyNames.any keywords.contains then none
  else Clause.runAll settings oracle routine.statements []

end ThreadedCode
