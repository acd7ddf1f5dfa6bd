import ThreadedCode.Proofs.Rendering

/-!
# Running statements

Executing the clauses of a statement does the actions of the statement and goes where it goes. This
needs that no name is hidden: the runtime state and the blocks are seen at the beginning of every
statement, and declaring an array keeps it so if the settings are not ambiguous.
-/

namespace ThreadedCode

/-- All names that clauses use stand for what they mean, apart from arrays. -/
structure Scope.Clear (settings : Settings) (scope : Scope) : Prop where
  context : scope.hasContext settings = true
  blocks : ∀ block, scope.seesBlock settings block = true

/-- What is declared under another name hides neither the runtime state nor blocks. -/
theorem Scope.Clear.cons {settings : Settings} {scope : Scope} (clear : scope.Clear settings)
    {name : String} (apart : settings.contextParam ≠ name)
    (plain : ∀ block, settings.blockName block ≠ name) (entity : Entity) :
    Scope.Clear settings ((name, entity) :: scope) := by
  constructor
  · rw [hasContext, List.lookup_cons, beq_false_of_ne apart]
    exact clear.context
  · intro block
    rw [seesBlock, List.lookup_cons, beq_false_of_ne (plain block)]
    exact clear.blocks block

namespace Settings.Unambiguous

variable {settings : Settings} (unambiguous : settings.Unambiguous)
include unambiguous

theorem clear_outermost : (Scope.outermost settings).Clear settings := by
  constructor
  · simp [Scope.hasContext, Scope.outermost]
  · intro block
    have apart : settings.blockName block ≠ settings.contextParam := by
      intro same
      have named := settings.blockNamed?_blockName block
      rw [same, unambiguous.noBlock] at named
      cases named
    rw [Scope.seesBlock, Scope.outermost, List.lookup_cons, beq_false_of_ne apart]
    rfl

theorem clear_words {scope : Scope} (clear : scope.Clear settings) (content : List Word) :
    Scope.Clear settings (("args", .words content) :: scope) :=
  clear.cons unambiguous.notWords (fun block => settings.blockName_ne block (by decide)) _

theorem clear_table {scope : Scope} (clear : scope.Clear settings) (blocks : List Nat) :
    Scope.Clear settings (("mmtable", .table blocks) :: scope) :=
  clear.cons unambiguous.notTable (fun block => settings.blockName_ne block (by decide)) _

end Settings.Unambiguous

namespace Clause

section Execution

variable {settings : Settings} {scope : Scope} {clause : Clause} {acts : List Action}

theorem actions_of_clear (clear : scope.Clear settings) (clause : Clause) :
    clause.actions settings scope = clause.effects scope := by
  have seen : clause.isSeen settings scope = true := by
    simp [isSeen, clear.context, clear.blocks]
  rw [actions, if_pos seen]

variable (oracle : Oracle) (history : List Action)

theorem run_onward (clear : scope.Clear settings) (does : clause.effects scope = some acts)
    (goes : clause.course (oracle (history ++ acts)) = .onward) (rest : List Clause) :
    run settings oracle (clause :: rest) scope history =
      run settings oracle rest (clause.declare scope) (history ++ acts) := by
  simp only [run, actions_of_clear clear, does, goes, Option.bind_eq_bind, Option.bind_some]

theorem run_leaves (clear : scope.Clear settings) (does : clause.effects scope = some acts)
    {target : Option Nat} (goes : clause.course (oracle (history ++ acts)) = .leaves target)
    (rest : List Clause) :
    run settings oracle (clause :: rest) scope history =
      some (history ++ acts, .leaves target) := by
  simp only [run, actions_of_clear clear, does, goes, Option.bind_eq_bind, Option.bind_some,
    Option.pure_def]

/-- What a last clause does, and where it goes. -/
theorem run_last (clear : scope.Clear settings) (does : clause.effects scope = some acts) :
    run settings oracle [clause] scope history =
      some (history ++ acts, clause.course (oracle (history ++ acts))) := by
  cases goes : clause.course (oracle (history ++ acts)) with
  | onward => exact run_onward oracle history clear does goes []
  | leaves target => exact run_leaves oracle history clear does goes []

theorem run_silent (clear : scope.Clear settings) (does : clause.effects scope = some []) :
    run settings oracle [clause] scope history =
      some (history, clause.course (oracle history)) := by
  have last := run_last oracle history clear does
  rwa [List.append_nil] at last

/-- A handler gets the operand words that were declared. -/
theorem run_call (clear : scope.Clear settings) {operands : List Word}
    (declared : scope.words? = Action.passed operands) (opcode : Opcode) (handoff : Option Nat)
    (rest : List Clause) :
    run settings oracle (.call opcode (!operands.isEmpty) handoff :: rest) scope history =
      run settings oracle rest scope
        (history ++ [.call opcode (Action.passed operands) handoff]) := by
  refine run_onward oracle history clear ?_ rfl rest
  cases operands with
  | nil => rfl
  | cons word words => simp [effects, declared, Action.passed]

theorem run_transfer (clear : scope.Clear settings) (transfer : Transfer) :
    run settings oracle transfer.clauses scope history =
      some (history, transfer.course (oracle history)) := by
  cases transfer with
  | stay => rfl
  | goto block | slot => exact run_silent oracle history clear rfl
  | slotIfSet =>
      have goes : (Clause.leaveIf .slot .slot).course (oracle history) =
          (oracle history).ifSet := by
        cases slot : (oracle history).slot <;>
          simp [course, Value.read, Condition.holds, Reply.ifSet, slot]
      refine (run_silent oracle history clear rfl).trans ?_
      rw [goes]
      rfl

variable (unambiguous : settings.Unambiguous)
include unambiguous

/-- Operand words are declared, unless there are none. -/
theorem run_operandClauses (operands : List Word) (rest : List Clause) :
    ∃ scope : Scope, scope.Clear settings ∧ scope.words? = Action.passed operands ∧
      run settings oracle (HandlerCall.operandClauses operands ++ rest)
        (Scope.outermost settings) history = run settings oracle rest scope history := by
  have clear := unambiguous.clear_outermost
  cases operands with
  | nil =>
      refine ⟨_, clear, ?_, rfl⟩
      rw [Scope.words?, Scope.outermost, List.lookup_cons,
        beq_false_of_ne (Ne.symm unambiguous.notWords)]
      rfl
  | cons word words =>
      have onward := run_onward oracle history clear
        (show (Clause.words (word :: words)).effects (Scope.outermost settings) = some [] from rfl)
        rfl rest
      rw [List.append_nil] at onward
      exact ⟨_, unambiguous.clear_words clear (word :: words), rfl, onward⟩

/-- A store is made, and does not touch the operand words. -/
theorem run_store (clear : scope.Clear settings) (store : Option Store) (rest : List Clause) :
    ∃ after : Scope, after.Clear settings ∧ after.words? = scope.words? ∧
      run settings oracle ((store.map Store.clauses).getD [] ++ rest) scope history =
        run settings oracle rest after (history ++ (store.map Action.store).toList) := by
  match store with
  | none =>
      refine ⟨scope, clear, rfl, ?_⟩
      simp
  | some (.dispatch cases) =>
      have inner := unambiguous.clear_table clear cases
      have declared := run_onward oracle history clear
        (show (Clause.table cases).effects scope = some [] from rfl) rfl (.storeTable :: rest)
      have stored := run_onward oracle history inner
        (show Clause.storeTable.effects (("mmtable", .table cases) :: scope) =
          some [.store (.dispatch cases)] from rfl) rfl rest
      rw [List.append_nil] at declared
      exact ⟨_, inner, rfl, declared.trans stored⟩
  | some (.resume block) =>
      exact ⟨scope, clear, rfl, run_onward oracle history clear rfl rfl rest⟩

/-- Executing the clauses of a statement does its actions and goes where it goes. -/
theorem run_clauses (statement : Statement) :
    run settings oracle statement.clauses (Scope.outermost settings) history =
      some (history ++ statement.actions,
        statement.course (oracle (history ++ statement.actions))) := by
  have clear := unambiguous.clear_outermost
  cases statement with
  | goto block | branch opcode block | halt => exact run_last oracle history clear rfl
  | call handler =>
      obtain ⟨scope, clear, words, declared⟩ := run_operandClauses oracle history unambiguous
        handler.operands ((handler.store.map Store.clauses).getD []
          ++ .call handler.opcode (!handler.operands.isEmpty) handler.handoff
          :: handler.transfer.clauses)
      obtain ⟨after, clear, same, stored⟩ := run_store oracle history unambiguous clear
        handler.store (.call handler.opcode (!handler.operands.isEmpty) handler.handoff
          :: handler.transfer.clauses)
      rw [Statement.clauses, HandlerCall.clauses, List.append_assoc, List.append_assoc,
        List.singleton_append, declared, stored, run_call _ _ clear (same.trans words),
        run_transfer _ _ clear, List.append_assoc]
      rfl

theorem runAll_leaves {statement : Statement} {target : Option Nat}
    (goes : statement.course (oracle (history ++ statement.actions)) = .leaves target)
    (rest : List (List Clause)) :
    runAll settings oracle (statement.clauses :: rest) history =
      some (history ++ statement.actions, target) := by
  simp only [runAll, run_clauses oracle history unambiguous, goes, Option.bind_eq_bind,
    Option.bind_some, Option.pure_def]

theorem runAll_onward {statement : Statement}
    (goes : statement.course (oracle (history ++ statement.actions)) = .onward)
    (rest : List (List Clause)) :
    runAll settings oracle (statement.clauses :: rest) history =
      runAll settings oracle rest (history ++ statement.actions) := by
  simp only [runAll, run_clauses oracle history unambiguous, goes, Option.bind_eq_bind,
    Option.bind_some]

end Execution

end Clause

/-- With unambiguous settings nothing but the statements decides what a routine does. -/
theorem Settings.Unambiguous.run_routine {settings : Settings} (unambiguous : settings.Unambiguous)
    (oracle : Oracle) (routine : Routine) :
    routine.run settings oracle = Clause.runAll settings oracle routine.statements [] := by
  have plain : settings.bodyNames.any keywords.contains = false := by
    rw [List.any_eq_false]
    intro name member keyword
    exact unambiguous.noKeyword name member (List.contains_iff_mem.mp keyword)
  rw [Routine.run, plain]
  rfl

theorem Settings.default_unambiguous : ({} : Settings).Unambiguous :=
  ⟨by decide, by decide, by decide, by decide⟩

end ThreadedCode
