import ThreadedCode.Proofs.Execution
import ThreadedCode.Proofs.Lexing

/-!
# Clauses of generated code

A statement of generated code is one clause, or several in braces, each with a semicolon behind it.
A clause is found by its lexemes alone: an array of words or blocks, the assignment of a slot, the
call of a handler, or a return with or without a condition. What its names stand for is another
matter, which depends on what was declared before.
-/

namespace ThreadedCode

/-- What a body returns. -/
inductive Value where
  | null
  | block (target : Nat)
  /-- The block in the slot for the next one. -/
  | slot
  deriving DecidableEq, Repr

/-- What a return can depend on. -/
inductive Condition where
  /-- The predicate handler of the opcode says so. -/
  | handler (opcode : Opcode)
  /-- The slot for the next block is not null. -/
  | slot
  deriving DecidableEq, Repr

/-- A clause of generated code. -/
inductive Clause where
  /-- Declares the array of operand words. -/
  | words (content : List Word)
  /-- Declares the array of blocks. -/
  | table (blocks : List Nat)
  /-- Stores the array of blocks. -/
  | storeTable
  /-- Stores a block in the slot for the next one. -/
  | storeBlock (block : Nat)
  /-- Calls the handler of an opcode, with the array of operand words or null, and perhaps with a
  block. -/
  | call (opcode : Opcode) (passesWords : Bool) (continuation : Option Nat)
  | leave (value : Value)
  | leaveIf (condition : Condition) (value : Value)
  deriving DecidableEq, Repr

namespace Settings

/-- The block of the given name. -/
def blockNamed? (settings : Settings) (lexeme : String) : Option Nat :=
  let block := Nat.ofDigitChars 10 (lexeme.toList.drop settings.blockPrefix.length) 0
  if settings.blockName block = lexeme then some block else none

/-- The opcode whose handler has the given name. -/
def handlerNamed? (settings : Settings) (lexeme : String) : Option Opcode :=
  Opcode.all.toList.find? fun opcode => settings.handlerPrefix ++ opcode.name == lexeme

end Settings

namespace Clause

/-- The number with the given digits. -/
def number? (lexeme : String) : Option Nat :=
  let number := Nat.ofDigitChars 10 lexeme.toList 0
  if toString number = lexeme then some number else none

/-- The word with the given digits and sign. -/
def word? : List String → Option Word
  | [digits] => (number? digits).map fun (number : Nat) => Int32.ofInt number
  | ["-", digits] => (number? digits).map fun (number : Nat) => Int32.ofInt (-number)
  | _ => none

/-- The block that is named. -/
def block? (settings : Settings) : List String → Option Nat
  | [name] => settings.blockNamed? name
  | _ => none

/-- What stands before the given last element. -/
def before? {α : Type} [DecidableEq α] (last : α) (items : List α) : Option (List α) :=
  if items.getLast? = some last then some items.dropLast else none

/-- The entries in braces, which commas separate. -/
def entries? {α : Type} (item? : List String → Option α) : List String → Option (List α)
  | "\x7b" :: rest => do
    let inner ← before? "\x7d" rest
    if inner.isEmpty then return [] else (inner.splitOn ",").mapM item?
  | _ => none

/-- The declaration of an array. -/
def array? (settings : Settings) (lexemes : List String) : Option Clause :=
  let declared := lexemes.takeWhile (· != "[")
  match lexemes.dropWhile (· != "[") with
  | "[" :: "]" :: "=" :: initial =>
    if declared = ["const", "int", "args"] then (entries? word? initial).map .words
    else if declared = Lexer.lexemes settings.qualifiedBlockType ++ ["mmtable"] then
      (entries? (block? settings) initial).map .table
    else none
  | _ => none

/-- Does the handler get the array of operand words? The other choice is null. -/
def argument? : String → Option Bool
  | "args" => some true
  | "nullptr" => some false
  | _ => none

/-- The use of a member of the runtime state. -/
def member? (settings : Settings) : List String → Option Clause
  | [slot, "=", source] =>
    if slot = settings.nextTableSlot ∧ source = "mmtable" then some .storeTable
    else if slot = settings.nextCallTargetSlot then (settings.blockNamed? source).map .storeBlock
    else none
  | [handler, "(", argument, ")"] => do
    return .call (← settings.handlerNamed? handler) (← argument? argument) none
  | [handler, "(", argument, ",", block, ")"] => do
    return .call (← settings.handlerNamed? handler) (← argument? argument)
      (some (← settings.blockNamed? block))
  | _ => none

/-- The value of an expression. -/
def value? (settings : Settings) : List String → Option Value
  | ["nullptr"] => some .null
  | ["(", "void", "*", ")", block] => (settings.blockNamed? block).map .block
  | ["(", "void", "*", ")", context, ".", slot] =>
    if context = settings.contextParam ∧ slot = settings.nextCallTargetSlot then some .slot
    else none
  | _ => none

/-- The return behind the open parenthesis of a condition. -/
def guarded? (settings : Settings) : List String → Option Clause
  | context :: "." :: slot :: ")" :: "return" :: value =>
    if context = settings.contextParam ∧ slot = settings.nextCallTargetSlot then
      (value? settings value).map (.leaveIf .slot)
    else none
  | context :: "." :: handler :: "(" :: ")" :: ")" :: "return" :: value =>
    if context = settings.contextParam then do
      return .leaveIf (.handler (← settings.handlerNamed? handler)) (← value? settings value)
    else none
  | _ => none

/-- The clause with the given lexemes. -/
def clause? (settings : Settings) : List String → Option Clause
  -- members come first, since the runtime state may be named like a keyword
  | context :: "." :: rest =>
    if context = settings.contextParam then member? settings rest else none
  | "return" :: value => (value? settings value).map .leave
  | "if" :: "(" :: rest => guarded? settings rest
  | "static" :: rest => array? settings rest
  | _ => none

end Clause

/-- The block that a value names. -/
def Value.references : Value → List Nat
  | .block target => [target]
  | .null | .slot => []

/-- The blocks that a clause names. -/
def Clause.references : Clause → List Nat
  | .table blocks => blocks
  | .storeBlock block => [block]
  | .call _ _ continuation => continuation.toList
  | .leave value | .leaveIf _ value => value.references
  | .words _ | .storeTable => []

/-- Does the clause declare an array? -/
def Clause.declares : Clause → Bool
  | .words _ | .table _ => true
  | .storeTable | .storeBlock _ | .call .. | .leave _ | .leaveIf .. => false

end ThreadedCode
