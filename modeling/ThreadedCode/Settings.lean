import ThreadedCode.Failure
import ThreadedCode.Text.Identifier
import ThreadedCode.Word

/-!
# Settings

The names that the generated code shares with the runtime it is linked against. Settings can be
given any names. Those that the generated code uses as identifiers are checked before a program is
compiled.
-/

namespace ThreadedCode

/-- The names used in the generated code. -/
structure Settings where
  /-- Headers included at the top, in order. -/
  includes : List String := ["stdafx.h", "vmdata.h", "compiled_code.h"]
  /-- Macro that must be defined for the generated code to compile. -/
  compiledModeMacro : Option String := some "VM_COMPILED_CODE_MODE"
  /-- Namespace of the runtime. -/
  runtimeNamespace : String := "lobster"
  /-- Type of the runtime state that every block gets. -/
  contextType : String := "VM"
  /-- Name of the runtime state in every block. -/
  contextParam : String := "vm"
  /-- Type of a pointer to a block. -/
  blockType : String := "block_t"
  /-- What block names begin with. -/
  blockPrefix : String := "block"
  /-- What handler names begin with. -/
  handlerPrefix : String := "F_"
  /-- Slot for the next block to run. -/
  nextCallTargetSlot : String := "next_call_target"
  /-- Slot for the dispatch table of the next call. -/
  nextTableSlot : String := "next_mm_table"
  /-- Name of the built-in that resumes a coroutine. -/
  resumeBuiltin : String := "resume"
  /-- Name of the array that holds the embedded bytecode. -/
  bytecodeTableName : String := "bytecodefb"
  /-- Runtime function that runs the program. -/
  bootstrapFunction : String := "EngineRunCompiledCodeMain"
  /-- Words of embedded bytecode on a line, where zero counts as one. -/
  wordsPerLine : Nat := 16
  deriving DecidableEq, Repr

namespace Settings

/-- Is the text a path of identifiers? -/
def isNamespace (text : String) : Bool := Identifier.isPath text.toList

/-- Is the text an identifier? -/
def isIdentifier (text : String) : Bool := Identifier.isValid text.toList

/-- The names that must be identifiers, in the order in which they are checked. -/
def identifiers (settings : Settings) : List String :=
  [settings.contextType, settings.contextParam, settings.blockType, settings.blockPrefix,
    settings.handlerPrefix, settings.nextCallTargetSlot, settings.nextTableSlot,
    settings.bytecodeTableName, settings.bootstrapFunction]

/-- The first name that is not what it must be. -/
def invalidName? (settings : Settings) : Option String :=
  if isNamespace settings.runtimeNamespace then
    settings.identifiers.find? fun name => !isIdentifier name
  else some settings.runtimeNamespace

/-- Changes the namespace, unless the text is none. -/
def setNamespace (text : String) : EStateM Failure Settings Unit := do
  if isNamespace text then
    modify fun settings => { settings with runtimeNamespace := text }
  else throw (.invalidIdentifier text)

theorem setNamespace_of_path {text : String} (path : isNamespace text = true)
    (settings : Settings) :
    (setNamespace text).run settings = .ok () { settings with runtimeNamespace := text } := by
  rw [setNamespace, if_pos path]
  rfl

/-- What is refused changes nothing. -/
theorem setNamespace_of_no_path {text : String} (unfit : isNamespace text = false)
    (settings : Settings) :
    (setNamespace text).run settings = .error (.invalidIdentifier text) settings := by
  rw [setNamespace, if_neg (Bool.eq_false_iff.mp unfit)]
  rfl

/-- A name of the runtime with its namespace in front. -/
def qualified (settings : Settings) (name : String) : String :=
  settings.runtimeNamespace ++ "::" ++ name

/-- The type of the runtime state, with its namespace. -/
def qualifiedContextType (settings : Settings) : String := settings.qualified settings.contextType

/-- The type of a pointer to a block, with its namespace. -/
def qualifiedBlockType (settings : Settings) : String := settings.qualified settings.blockType

/-- The name of a block. -/
def blockName (settings : Settings) (block : Nat) : String :=
  settings.blockPrefix ++ toString block

/-- A member of the runtime state. -/
def member (settings : Settings) (name : String) : String :=
  settings.contextParam ++ "." ++ name

/-- The signature of a block. -/
def signature (settings : Settings) (block : Nat) : String :=
  "static void *" ++ settings.blockName block ++ "(" ++ settings.qualifiedContextType ++ " &"
    ++ settings.contextParam ++ ")"

end Settings

end ThreadedCode
