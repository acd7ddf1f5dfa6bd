import ThreadedCode.Proofs.Notes
import ThreadedCode.Proofs.ReadBack

/-!
# Reading rendered statements

Every statement stands for a sequence of clauses. The lexemes of the clauses are what is read from
the text that the statement is rendered to, inside of a body and as long as its note stays inside
its comment. So a reader of routines takes in the statement with its clauses.
-/

namespace ThreadedCode

open Lexer

/-- The clauses of a transfer. -/
def Transfer.clauses : Transfer → List Clause
  | .stay => []
  | .goto block => [.leave (.block block)]
  | .slot => [.leave .slot]
  | .slotIfSet => [.leaveIf .slot .slot]

/-- The clauses of a store. -/
def Store.clauses : Store → List Clause
  | .dispatch cases => [.table cases, .storeTable]
  | .resume block => [.storeBlock block]

namespace HandlerCall

/-- The clauses in front of a handler call. -/
def operandClauses (operands : List Word) : List Clause :=
  if operands.isEmpty then [] else [.words operands]

/-- The clauses of a handler call. -/
def clauses (call : HandlerCall) : List Clause :=
  operandClauses call.operands ++ (call.store.map Store.clauses).getD []
    ++ [.call call.opcode (!call.operands.isEmpty) call.handoff] ++ call.transfer.clauses

end HandlerCall

/-- The clauses of a statement. -/
def Statement.clauses : Statement → List Clause
  | .goto block => [.leave (.block block)]
  | .branch opcode block => [.leaveIf (.handler opcode) (.block block)]
  | .call handler => handler.clauses
  | .halt => [.leave .null]

/-- The note of a call stays inside its comment. -/
def HandlerCall.Guarded (call : HandlerCall) : Prop :=
  ∀ note, call.note = some note → StaysOpen note.toList

/-- Without a note there is nothing to guard. -/
theorem HandlerCall.guarded_of_note_eq_none {call : HandlerCall} (bare : call.note = none) :
    call.Guarded := by
  intro note found
  rw [bare] at found
  cases found

/-- The note of a statement stays inside its comment. -/
def Statement.Guarded : Statement → Prop
  | .call handler => handler.Guarded
  | .goto _ | .branch .. | .halt => True

/-- The note of a statement has no line that a carriage return ends. -/
def Statement.Unreturned : Statement → Prop
  | .call handler => ∀ note, handler.note = some note → '\r' ∉ note.toList
  | .goto _ | .branch .. | .halt => True

/-- The lexemes of a statement, which is put in braces if it calls a handler. -/
def Statement.lexemes (settings : Settings) : Statement → List String
  | .call handler => ["\x7b"] ++ Clause.spelled settings handler.clauses ++ ["\x7d"]
  | .goto block => Clause.spelled settings [.leave (.block block)]
  | .branch opcode block => Clause.spelled settings [.leaveIf (.handler opcode) (.block block)]
  | .halt => Clause.spelled settings [.leave .null]

theorem reads_operands {depth : Nat} (settings : Settings) (operands : List Word) :
    Reads depth (HandlerCall.renderOperands operands)
      (Clause.spelled settings (HandlerCall.operandClauses operands)) := by
  unfold HandlerCall.renderOperands HandlerCall.operandClauses
  split
  · exact reads_empty
  · have opens : Reads depth "static const int args[] = \x7b"
        ["static", "const", "int", "args", "[", "]", "=", "\x7b"] := IsClosed.reads (by decide)
    have closes : Reads depth "\x7d; " ["\x7d", ";"] := IsClosed.reads (by decide)
    have entries : ReadsApart depth _ _ := readsApart_intercalate Clause.reads_word operands
    have all := (opens.append_apart entries).append (by decide) closes
    simpa [Clause.spelled, Clause.lexemes] using all

section Rendered

variable {depth : Nat} {settings : Settings} (valid : settings.invalidName? = none)
include valid

theorem reads_member {name : String} (word : IsWord name) :
    ReadsApart depth (settings.member name) [settings.contextParam, ".", name] := by
  have context := Settings.isWord_of_mem valid
    (show settings.contextParam ∈ settings.identifiers by simp [Settings.identifiers])
  have dot : Reads depth "." ["."] := IsClosed.reads (by decide)
  exact (context.reads.append (by decide) dot).append_apart word.reads

theorem reads_target (block : Nat) :
    ReadsApart depth (Transfer.target settings block)
      (Clause.valueLexemes settings (.block block)) := by
  have cast : Reads depth "(void *)" ["(", "void", "*", ")"] := IsClosed.reads (by decide)
  exact cast.append_apart (Settings.isWord_blockName valid block).reads

theorem reads_slot :
    ReadsApart depth (settings.member settings.nextCallTargetSlot)
      (Clause.conditionLexemes settings .slot) :=
  reads_member valid (Settings.isWord_of_mem valid (by simp [Settings.identifiers]))

theorem reads_transfer (transfer : Transfer) :
    Reads depth (transfer.render settings) (Clause.spelled settings transfer.clauses) := by
  have semicolon : Reads depth ";" [";"] := IsClosed.reads (by decide)
  have gives : Reads depth " return " ["return"] := IsClosed.reads (by decide)
  have casts : Reads depth " return (void *)" ["return", "(", "void", "*", ")"] :=
    IsClosed.reads (by decide)
  have tests : Reads depth " if (" ["if", "("] := IsClosed.reads (by decide)
  have closes : Reads depth ") return (void *)" [")", "return", "(", "void", "*", ")"] :=
    IsClosed.reads (by decide)
  cases transfer with
  | stay => exact reads_empty
  | goto block =>
      exact (gives.append_apart (reads_target valid block)).append (by decide) semicolon
  | slot => exact (casts.append_apart (reads_slot valid)).append (by decide) semicolon
  | slotIfSet =>
      exact (((tests.append_apart (reads_slot valid)).append (by decide) closes).append_apart
        (reads_slot valid)).append (by decide) semicolon

theorem reads_store (store : Store) :
    Reads depth (store.render settings) (Clause.spelled settings store.clauses) := by
  have semicolon : Reads depth "; " [";"] := IsClosed.reads (by decide)
  have assigns : Reads depth " = " ["="] := IsClosed.reads (by decide)
  cases store with
  | dispatch cases =>
      have static : Reads depth "static " ["static"] := IsClosed.reads (by decide)
      have opens : Reads depth " mmtable[] = \x7b" ["mmtable", "[", "]", "=", "\x7b"] :=
        IsClosed.reads (by decide)
      have closes : Reads depth "\x7d; " ["\x7d", ";"] := IsClosed.reads (by decide)
      have uses : Reads depth " = mmtable; " ["=", "mmtable", ";"] := IsClosed.reads (by decide)
      have type : ReadsApart depth settings.qualifiedBlockType _ :=
        readsApart_lexemes (Settings.isPlain_qualified valid (by simp [Settings.identifiers]))
      have entries : ReadsApart depth _ _ := readsApart_intercalate
        (fun block => (Settings.isWord_blockName valid block).reads) cases
      have slot : ReadsApart depth (settings.member settings.nextTableSlot) _ :=
        reads_member valid (Settings.isWord_of_mem valid (by simp [Settings.identifiers]))
      have all := (((((static.append_apart type).append (by decide) opens).append_apart
        entries).append (by decide) closes).append_apart slot).append (by decide) uses
      simp only [Store.clauses, Clause.spelled, Clause.lexemes, List.flatMap_cons,
        List.flatMap_nil, List.append_assoc, List.cons_append, List.nil_append] at all ⊢
      exact all
  | resume block =>
      have name : ReadsApart depth _ _ := (Settings.isWord_blockName valid block).reads
      exact (((reads_slot valid).append (by decide) assigns).append_apart name).append (by decide)
        semicolon

/-- The end of a call, with the block that is passed. -/
theorem reads_handoff (handoff : Option Nat) :
    Opens ((handoff.map fun block => ", " ++ settings.blockName block).getD "" ++ ");") ∧
      Reads depth ((handoff.map fun block => ", " ++ settings.blockName block).getD "" ++ ");")
        ((handoff.map fun block => [",", settings.blockName block]).getD [] ++ [")", ";"]) := by
  have closes : Reads depth ");" [")", ";"] := IsClosed.reads (by decide)
  cases handoff with
  | none =>
      have apart : Opens ("" ++ ");") := by decide
      exact ⟨apart, closes⟩
  | some block =>
      have comma : Reads depth ", " [","] := IsClosed.reads (by decide)
      have name : ReadsApart depth _ _ := (Settings.isWord_blockName valid block).reads
      have apart : Opens (", " ++ settings.blockName block ++ ");") := by
        rw [Opens, String.toList_append, String.toList_append]
        rfl
      exact ⟨apart, (comma.append_apart name).append (by decide) closes⟩

theorem reads_invocation (call : HandlerCall) :
    Reads depth (call.renderInvocation settings)
      (Clause.spelled settings
        [.call call.opcode (!call.operands.isEmpty) call.handoff]) := by
  have opens : Reads depth "(" ["("] := IsClosed.reads (by decide)
  have handler : ReadsApart depth _ _ :=
    reads_member valid (Settings.isWord_handler valid call.opcode)
  have argument : ReadsApart depth (if call.operands.isEmpty then "nullptr" else "args")
      [if call.operands.isEmpty then "nullptr" else "args"] := by
    split
    · exact (isWord_of_isValid (by decide)).reads
    · exact (isWord_of_isValid (by decide)).reads
  obtain ⟨apart, passed⟩ := reads_handoff valid call.handoff
  have all := ((handler.append (by decide) opens).append_apart argument).append apart passed
  rw [HandlerCall.renderInvocation, String.append_assoc]
  cases empty : call.operands.isEmpty <;> simpa [Clause.spelled, Clause.lexemes, empty] using all

theorem reads_call {call : HandlerCall} (guarded : call.Guarded)
    (unreturned : ∀ note, call.note = some note → '\r' ∉ note.toList) :
    Reads (depth + 1) (call.render settings)
      (["\x7b"] ++ Clause.spelled settings call.clauses ++ ["\x7d"]) := by
  have opens : Reads (depth + 1) "\x7b " ["\x7b"] := IsClosed.reads (by decide)
  have closes : Reads (depth + 1) " \x7d" ["\x7d"] := IsClosed.reads (by decide)
  have store : Reads (depth + 1) ((call.store.map (Store.render settings)).getD "")
      (Clause.spelled settings ((call.store.map Store.clauses).getD [])) := by
    cases call.store with
    | none => exact reads_empty
    | some store => exact reads_store valid store
  have note : Reads (depth + 1) call.renderNote [] := by
    unfold HandlerCall.renderNote
    cases noted : call.note with
    | none => exact reads_empty
    | some note => exact reads_comment (guarded note noted) (unreturned note noted)
  have all := (((((opens.append (reads_operands settings call.operands)).append store).append
    (reads_invocation valid call)).append note).append
    (reads_transfer valid call.transfer)).append closes
  simpa [HandlerCall.render, HandlerCall.clauses, Clause.spelled] using all

/-- Inside of a body the lexemes of a statement are what is read from its text. -/
theorem reads_statement {statement : Statement} (guarded : statement.Guarded)
    (unreturned : statement.Unreturned) :
    Reads (depth + 1) (statement.render settings) (statement.lexemes settings) := by
  have semicolon : Reads (depth + 1) ";" [";"] := IsClosed.reads (by decide)
  cases statement with
  | goto block =>
      have gives : Reads (depth + 1) "return " ["return"] := IsClosed.reads (by decide)
      exact (gives.append_apart (reads_target valid block)).append (by decide) semicolon
  | branch opcode block =>
      have tests : Reads (depth + 1) "if (" ["if", "("] := IsClosed.reads (by decide)
      have gives : Reads (depth + 1) "()) return " ["(", ")", ")", "return"] :=
        IsClosed.reads (by decide)
      have handler : ReadsApart (depth + 1) _ _ :=
        reads_member valid (Settings.isWord_handler valid opcode)
      exact (((tests.append_apart handler).append (by decide) gives).append_apart
        (reads_target valid block)).append (by decide) semicolon
  | call handler => exact reads_call valid guarded unreturned
  | halt =>
      have all : Reads (depth + 1) "return nullptr;" ["return", "nullptr", ";"] :=
        IsClosed.reads (by decide)
      exact all

/-- A reader of routines takes in a statement with its clauses. -/
theorem leads_statement (statement : Statement) (routines : List Routine) (name : String)
    (before : List (List Clause)) :
    Routine.Leads settings ⟨routines, .inside name before none []⟩ (statement.lexemes settings)
      ⟨routines, .inside name (before ++ [statement.clauses]) none []⟩ := by
  cases statement with
  | call handler => exact Routine.leads_braced valid handler.clauses
  | goto block | branch opcode block | halt => exact Routine.leads_plain valid rfl

end Rendered

end ThreadedCode
