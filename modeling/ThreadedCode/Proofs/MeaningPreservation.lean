import ThreadedCode.Proofs.BodyText
import ThreadedCode.Proofs.StatementRuns

/-!
# Routines mean their blocks

Executing the statements of a definition does what stepping through the instructions of its block
does. One instruction is dealt with first, then a whole body by induction along the decoding, and
then every definition of a unit. What is executed in the end is what is read from the text of the
bodies. That is the definitions only if the names that the text shows stay inside of their comments,
and it has their meaning only if no name in the settings hides another one.
-/

namespace ThreadedCode

/-- Executing the statements and stepping through the instructions come to the same end, with the
same actions. -/
def RunAlike (settings : Settings) (program : Program) (oracle : Oracle) (block : Nat)
    (statements : List Statement) (instructions : List Instruction) (history : List Action) :
    Prop :=
  ∃ outcome,
    Clause.runAll settings oracle (statements.map Statement.clauses) history = some outcome ∧
    Machine.run settings program oracle block instructions history = some outcome

namespace Bodies

section Bodies

variable {settings : Settings} {program : Program} {arena : Arena}

/-- The closing statement only returns. -/
theorem closingStatement_meaning (code : Array Word) (last : Instruction) :
    (closingStatement code last).actions = [] ∧
      ∀ reply, (closingStatement code last).course reply =
        .leaves (Machine.fallOff code last) := by
  unfold closingStatement
  cases Machine.fallOff code last with
  | none => exact ⟨rfl, fun _ => rfl⟩
  | some next => exact ⟨rfl, fun _ => rfl⟩

theorem run_closingStatement (unambiguous : settings.Unambiguous) (oracle : Oracle)
    (code : Array Word) (last : Instruction) (history : List Action) :
    Clause.runAll settings oracle [(closingStatement code last).clauses] history =
      some (history, Machine.fallOff code last) := by
  obtain ⟨silent, goes⟩ := closingStatement_meaning code last
  rw [Clause.runAll_leaves oracle history unambiguous (goes _), silent, List.append_nil]

/-- An instruction of a body that control has not left runs as the machine does, if what is written
behind it does. -/
theorem run_written (unambiguous : settings.Unambiguous) {instruction : Instruction}
    {rest : List Instruction} {body : OpenBody} {statement : Statement}
    (stands : instruction.StandsIn program.code)
    (tail : Decodes program.code instruction.next rest .complete) (inside : body.left = false)
    (lowered : (Lowering.statement settings program arena body.block instruction).outcome =
      .ok statement)
    {behind : List Item} {oracle : Oracle}
    (follows : closes program arena instruction = false → statement.leaves = false →
      ∀ history, RunAlike settings program oracle body.block (statements behind)
        (continued arena rest) history)
    (history : List Action) :
    RunAlike settings program oracle body.block
      (statements (written settings program arena instruction body statement ++ behind))
      (instruction :: continued arena rest) history := by
  obtain ⟨does, goes⟩ := Lowering.statement_meaning stands lowered
  have empty := continued_isEmpty tail rfl arena
  have goes := goes (oracle (history ++ statement.actions))
  rw [statements_written, inside, Bool.false_or]
  cases course : statement.course (oracle (history ++ statement.actions)) with
  | leaves target =>
      rw [course] at goes
      exact ⟨_, Clause.runAll_leaves oracle history unambiguous course _,
        Machine.run_leaves does goes _⟩
  | onward =>
      rw [course] at goes
      -- the body is not marked as left, so what is written next is read next
      have stays : statement.leaves = false := by
        cases leaves : statement.leaves with
        | false => rfl
        | true =>
            obtain ⟨target, left⟩ := Statement.course_of_leaves leaves
              (oracle (history ++ statement.actions))
            rw [course] at left
            cases left
      rw [RunAlike, List.map_cons, Clause.runAll_onward oracle history unambiguous course,
        Machine.run_onward does goes, empty, stays]
      cases closed : closes program arena instruction with
      | true => exact ⟨_, run_closingStatement unambiguous _ _ _ _, rfl⟩
      | false => exact follows closed stays _

/-- The rest of a body that control has not left runs as the machine does from there on. -/
theorem run_body (unambiguous : settings.Unambiguous) {cursor : Nat}
    {instructions : List Instruction} {ending : Ending}
    (run : Decodes program.code cursor instructions ending) (complete : ending = .complete)
    {body : OpenBody} (ready : Ready program arena cursor (some body)) (inside : body.left = false)
    {bodies count : Nat}
    (finished : (walk settings program arena ending (some body) bodies instructions).outcome =
      .ok count)
    (oracle : Oracle) (history : List Action) :
    RunAlike settings program oracle body.block
      (statements (walk settings program arena ending (some body) bodies instructions).emitted)
      (continued arena instructions) history := by
  induction run generalizing body bodies history with
  | complete past => exact absurd (ready rfl).2 (Nat.not_lt.mpr past)
  | badOpcode _ _ | unresolved _ _ _ => cases complete
  | @instruction instruction rest ending stands tail ih =>
      subst complete
      have plain := (ready rfl).1
      have entered : entered arena instruction.offset (some body) = some body := entered_plain plain
      cases lowered : (Lowering.statement settings program arena body.block
          instruction).outcome with
      | error cause =>
          rw [walk_cons, step_fails entered lowered] at finished
          cases finished
      | ok statement =>
          have stepped := step_writes entered lowered
          rw [walk_cons_ok (congrArg Trace.outcome stepped)] at finished ⊢
          have all : continued arena (instruction :: rest) =
              instruction :: continued arena rest := by simp [continued, plain]
          rw [stepped, entering_plain plain, List.append_assoc, statements_labels, all]
          refine run_written unambiguous stands tail inside lowered
            (fun stays onward history => ?_) history
          have after : (if closes program arena instruction = true then none
              else some { body with left := body.left || statement.leaves }) = some body := by
            obtain ⟨block, left⟩ := body
            cases inside
            rw [stays, onward]
            rfl
          rw [after] at finished ⊢
          exact ih rfl (ready_of_not_closes stays _) inside finished history

/-- A definition means its block: an instruction of the list is the first of the block, and from
there on the definition runs as the machine does. -/
def Means (settings : Settings) (program : Program) (arena : Arena) (definition : Definition)
    (instructions : List Instruction) : Prop :=
  ∃ before first rest, instructions = before ++ first :: rest ∧ first.offset = definition.block ∧
    ∀ oracle, RunAlike settings program oracle definition.block definition.statements
      (first :: continued arena rest) []

/-- Every definition of a walk means its block. -/
theorem means_of_mem (unambiguous : settings.Unambiguous) {cursor : Nat}
    {instructions : List Instruction} {ending : Ending}
    (run : Decodes program.code cursor instructions ending) (complete : ending = .complete)
    {current : Option OpenBody} (ready : Ready program arena cursor current) {bodies count : Nat}
    (finished : (walk settings program arena ending current bodies instructions).outcome =
      .ok count)
    {definition : Definition}
    (member : definition ∈
      definitions (walk settings program arena ending current bodies instructions).emitted) :
    Means settings program arena definition instructions := by
  obtain ⟨before, first, rest, statement, bodies, split, same, stands, tail, lowered, readyAfter,
    finished, written⟩ := exists_start_of_mem run complete ready finished member
  refine ⟨before, first, rest, split, same, fun oracle => ?_⟩
  rw [← same, Definition.statements, written]
  have inside : (OpenBody.mk first.offset false).left = false := rfl
  refine run_written unambiguous stands tail inside lowered (fun stays onward history => ?_) []
  -- the walk goes on inside the body that was opened here
  rw [stays, onward] at readyAfter finished ⊢
  exact run_body unambiguous tail rfl readyAfter rfl finished oracle history

end Bodies

end Bodies

/-- Every definition that a program is compiled to means its block. -/
theorem Program.Clean.definitions_mean {program : Program} {start : Nat}
    (clean : program.Clean start) {settings : Settings} (unambiguous : settings.Unambiguous)
    {count : Nat}
    (written : (Bodies.items settings program program.scan.arena).outcome = .ok count)
    {definition : Definition} (member : definition ∈ program.definitions settings) :
    Bodies.Means settings program program.scan.arena definition program.instructions := by
  rw [Program.definitions, Program.parts, Bodies.parts_definitions, clean.items_eq] at member
  rw [clean.items_eq] at written
  exact Bodies.means_of_mem unambiguous clean.run rfl (Bodies.ready_none _ _ _) written member

/-- The routines of different definitions have different names. -/
theorem routines_filter {settings : Settings} {definitions : List Definition}
    {definition : Definition} (distinct : (definitions.map Definition.block).Nodup)
    (member : definition ∈ definitions) :
    (definitions.map (Definition.routine settings)).filter
        (fun routine => routine.name == settings.blockName definition.block) =
      [definition.routine settings] := by
  have same : ((fun routine : Routine => routine.name == settings.blockName definition.block) ∘
      Definition.routine settings) = fun other => other.block == definition.block := by
    funext other
    rw [Function.comp_apply, Bool.eq_iff_iff, beq_iff_eq, beq_iff_eq]
    exact ⟨Settings.blockName_injective, congrArg settings.blockName⟩
  rw [List.filter_map, same, definitions_filter distinct member]
  rfl

open SourceUnit in
/-- Every declared block of a usable unit has one routine among those that the bodies are read as.
For any runtime, executing the routine does the same actions and returns the same value as stepping
through the instructions of the block. -/
theorem routines_mean_blocks {settings : Settings} {program : Program}
    {compilation : Compilation} (compiled : (compile settings program).outcome = .ok compilation)
    (usable : compilation.isUsable = true) (unambiguous : settings.Unambiguous)
    (inside : program.NamesInside) {block : Nat} (declared : block ∈ program.scan.arena.offsets) :
    ∃ start routines routine, program.code[1]?.bind Word.index? = some start ∧
      compilation.source =
        preambleText settings ++ declarationsText settings program.scan.arena.offsets ++ "\n"
          ++ String.join ((program.parts settings).map (Part.text settings))
          ++ tableText settings (LittleEndian.words program.raw) ++ entryText settings start ∧
      Routine.readAll? settings (String.join ((program.parts settings).map (Part.text settings))) =
        some routines ∧
      routines.filter (fun other => other.name == settings.blockName block) = [routine] ∧
      ∀ oracle, ∃ outcome, routine.run settings oracle = some outcome ∧
        Machine.run settings program oracle block (program.blockInstructions block) [] =
          some outcome := by
  obtain ⟨valid, start, count, clean, written, rfl⟩ := exists_clean_of_usable compiled usable
  obtain ⟨definition, member, rfl, -⟩ := clean.exists_definition written declared
  refine ⟨start, _, definition.routine settings, (Scan.entry?_eq_some_iff.mp clean.entry).2,
    source_wholeUnit settings program start, clean.readAll?_bodies inside written valid,
    routines_filter (clean.definitions_nodup written) member, fun oracle => ?_⟩
  obtain ⟨before, first, rest, split, same, alike⟩ :=
    clean.definitions_mean unambiguous written member
  rw [unambiguous.run_routine, ← same, clean.blockInstructions_eq split, same]
  exact alike oracle

open SourceUnit in
theorem routines_mean_blocks_innerFunction :
    ∃ compilation, (compile {} (innerFunction "f")).outcome = .ok compilation ∧
      compilation.isUsable = true ∧ ({} : Settings).Unambiguous ∧
      (innerFunction "f").NamesInside ∧ 2 ∈ (innerFunction "f").scan.arena.offsets ∧
      ∃ start routines routine, (innerFunction "f").code[1]?.bind Word.index? = some start ∧
        compilation.source =
          preambleText {} ++ declarationsText {} (innerFunction "f").scan.arena.offsets ++ "\n"
            ++ String.join (((innerFunction "f").parts {}).map (Part.text {}))
            ++ tableText {} (LittleEndian.words (innerFunction "f").raw) ++ entryText {} start ∧
        Routine.readAll? {} (String.join (((innerFunction "f").parts {}).map (Part.text {}))) =
          some routines ∧
        routines.filter (fun other => other.name == ({} : Settings).blockName 2) = [routine] ∧
        ∀ oracle, ∃ outcome, routine.run {} oracle = some outcome ∧
          Machine.run {} (innerFunction "f") oracle 2 ((innerFunction "f").blockInstructions 2)
            [] = some outcome := by
  have compiled := compile_of_written Settings.default_valid (InnerFunction.clean "f")
    (InnerFunction.written "f")
  have unambiguous := Settings.default_unambiguous
  have inside := InnerFunction.namesInside (show Lexer.IsLine "f" by decide)
  have declared : 2 ∈ (innerFunction "f").scan.arena.offsets := by
    rw [InnerFunction.offsets]
    exact List.mem_singleton_self 2
  exact ⟨_, compiled, rfl, unambiguous, inside, declared,
    routines_mean_blocks compiled rfl unambiguous inside declared⟩

/-- The second line of the name is a statement that returns. -/
def returningName : String := "f\nreturn nullptr;"

/-- The runtime state is named like the array of operand words. -/
def stateNamedArgs : Settings := { contextParam := "args" }

/-- A function name with a second line leaves its comment and returns from the block, of which the
machine runs two more instructions. A name for the runtime state that the array of operand words
hides leaves a block of a usable unit without a meaning. -/
theorem routines_mislead_returningName :
    (∃ compilation, (compile {} (innerFunction returningName)).outcome = .ok compilation ∧
      compilation.isUsable = true ∧ (innerFunction returningName).scan.arena.offsets = [2] ∧
      ∃ routine,
        Routine.readAll? {}
            (String.join (((innerFunction returningName).parts {}).map (Part.text {}))) =
          some [routine] ∧
        routine.name = ({} : Settings).blockName 2 ∧
        ∀ oracle, routine.run {} oracle = some ([.call .pop none none], none) ∧
          Machine.run {} (innerFunction returningName) oracle 2
              ((innerFunction returningName).blockInstructions 2) [] =
            some ([.call .pop none none, .call .funStart (some [0, 0, 0]) none,
              .call .exit none none], none)) ∧
    ∃ compilation, (compile stateNamedArgs countingLoop).outcome = .ok compilation ∧
      compilation.isUsable = true ∧ countingLoop.NamesInside ∧
      2 ∈ countingLoop.scan.arena.offsets ∧
      ∃ routine routines,
        Routine.readAll? stateNamedArgs
            (String.join ((countingLoop.parts stateNamedArgs).map (Part.text stateNamedArgs))) =
          some (routine :: routines) ∧
        routine.name = stateNamedArgs.blockName 2 ∧
        ∀ oracle, routine.run stateNamedArgs oracle = none := by
  constructor
  · have compiled := compile_of_written Settings.default_valid (InnerFunction.clean returningName)
      (InnerFunction.written returningName)
    have label : BodyLine.text {} (.label (some returningName)) =
        BodyLine.text {} (.label (some "f")) ++ BodyLine.text {} (.statement .halt) := by decide
    have instructions : (innerFunction returningName).blockInstructions 2 =
        [⟨2, .pop, ⟨3, 3, 0⟩⟩, ⟨3, .funStart, ⟨4, 7, 3⟩⟩, ⟨7, .exit, ⟨8, 8, 0⟩⟩] := by cbv
    refine ⟨_, compiled, rfl, InnerFunction.offsets returningName, _,
      InnerFunction.readAll?_bodies label ⟨trivial, trivial⟩, by decide, fun oracle => ⟨?_, ?_⟩⟩
    · rw [Settings.default_unambiguous.run_routine]
      rfl
    · rw [instructions]
      rfl
  · have valid : stateNamedArgs.invalidName? = none := by decide
    have written : (Bodies.items stateNamedArgs countingLoop countingLoop.scan.arena).outcome =
        .ok 2 := by cbv
    have inside : countingLoop.NamesInside := Program.namesInside_bare _ _ _
    have declared : 2 ∈ countingLoop.scan.arena.offsets := by
      rw [countingLoop_offsets]
      exact List.mem_cons_self
    have compiled := compile_of_written valid countingLoop_clean written
    have read := countingLoop_clean.readAll?_bodies inside written valid
    obtain ⟨lines, rest, definitions⟩ : ∃ lines rest, countingLoop.definitions stateNamedArgs =
        ⟨2, .statement (.call ⟨.pushInt, [7], none, none, none, .stay⟩) :: lines⟩ :: rest :=
      ⟨_, _, by cbv⟩
    rw [definitions] at read
    refine ⟨_, compiled, rfl, inside, declared, _, _, read, rfl, fun oracle => ?_⟩
    have plain : stateNamedArgs.bodyNames.any keywords.contains = false := by decide
    rw [Routine.run, plain]
    rfl

end ThreadedCode
