import ThreadedCode.Proofs.BodyText
import ThreadedCode.Proofs.References

/-!
# Units that name only what they declare

The blocks that a unit names are those that the routines of its bodies name, and the one at its
entry point. The routines are read from the whole text of the bodies, which has the blocks of the
statements and no others if the names that it shows stay inside of their comments. The notices of a
compilation are those of the scan, which looks at the entry jump, and those of the bodies. Together
they warn of a block exactly if a statement or the entry point names one that is not declared.
-/

namespace ThreadedCode

/-- The clauses of a statement name the blocks that it does. -/
theorem Statement.references_clauses (statement : Statement) :
    statement.clauses.flatMap Clause.references = statement.references := by
  have transfers : ∀ transfer : Transfer,
      transfer.clauses.flatMap Clause.references = transfer.references := by
    intro transfer
    cases transfer <;> rfl
  have stores : ∀ store : Option Store,
      ((store.map Store.clauses).getD []).flatMap Clause.references =
        (store.map Store.references).getD [] := by
    intro store
    cases store with
    | none => rfl
    | some content => cases content <;> simp [Store.clauses, Store.references, Clause.references]
  have operands : ∀ words : List Word,
      (HandlerCall.operandClauses words).flatMap Clause.references = [] := by
    intro words
    unfold HandlerCall.operandClauses
    split <;> rfl
  cases statement with
  | goto block | halt | branch opcode block => rfl
  | call handler =>
      simp [Statement.clauses, HandlerCall.clauses, Statement.references, HandlerCall.references,
        transfers, stores, operands, Clause.references]

/-- A clause that calls a handler belongs to the call of this handler. -/
theorem Statement.exists_handler {statement : Statement} {opcode : Opcode} {passesWords : Bool}
    {continuation : Option Nat}
    (called : .call opcode passesWords continuation ∈ statement.clauses) :
    ∃ handler, statement = .call handler ∧ opcode = handler.opcode ∧
      continuation = handler.handoff := by
  cases statement with
  | goto block | halt | branch opcode block => simp [Statement.clauses] at called
  | call handler =>
      refine ⟨handler, rfl, ?_⟩
      simp only [Statement.clauses, HandlerCall.clauses, List.mem_append, List.mem_singleton]
        at called
      rcases called with ((words | stored) | same) | transferred
      · unfold HandlerCall.operandClauses at words
        split at words <;> simp at words
      · cases content : handler.store with
        | none => simp [content] at stored
        | some store => cases store <;> simp [content, Store.clauses] at stored
      · cases same
        exact ⟨rfl, rfl⟩
      · cases content : handler.transfer <;> simp [content, Transfer.clauses] at transferred

namespace Lowering

variable {settings : Settings} {program : Program} {arena : Arena} {block : Nat}
  {instruction : Instruction} {handler : HandlerCall}

/-- The handler of a loop gets the block it is called in. -/
theorem handoff_of_loop
    (lowered : (Lowering.statement settings program arena block instruction).outcome =
      .ok (.call handler)) (loops : handler.opcode.flow = .loop) :
    handler.handoff = some block := by
  have called := call_of_statement lowered
  simp only [call_outcome, except_bind_eq_ok] at called
  obtain ⟨store, -, handoff, handed, transfer, -, result⟩ := called
  cases result
  rw [handoff_outcome, loops] at handed
  cases handed
  rfl

end Lowering

namespace Bodies.Lowers

variable {settings : Settings} {program : Program} {arena : Arena} {block : Nat} {left : Bool}
  {instructions : List Instruction} {statements : List Statement}

/-- The return at the end goes to a block of the arena. -/
theorem closing_declared
    (lowers : Lowers settings program arena block left instructions statements) :
    ∃ lowered closing, statements = lowered ++ closing ∧
      List.Forall₂ (fun instruction statement =>
        (Lowering.statement settings program arena block instruction).outcome = .ok statement)
        instructions lowered ∧
      ∀ statement ∈ closing, ∀ target ∈ statement.references, target ∈ arena.offsets := by
  obtain ⟨lowered, last, each, -, closed, rfl⟩ := lowers
  refine ⟨lowered, _, rfl, each, fun statement member target named => ?_⟩
  split at member
  · cases member
  · rw [List.mem_singleton.mp member, closingStatement, Machine.fallOff] at named
    split_ifs at named with ends
    · cases named
    · rw [← Arena.contains_iff, List.mem_singleton.mp named]
      simpa [closes, (not_or.mp ends).2] using closed

/-- A loop is continued in the block itself. -/
theorem loop_continuation
    (lowers : Lowers settings program arena block left instructions statements)
    {statement : Statement} (member : statement ∈ statements) {opcode : Opcode}
    {passesWords : Bool} {continuation : Option Nat}
    (called : .call opcode passesWords continuation ∈ statement.clauses)
    (loops : opcode.flow = .loop) : continuation = some block := by
  obtain ⟨handler, rfl, rfl, rfl⟩ := Statement.exists_handler called
  rcases lowers.cases_mem member with ⟨instruction, -, lowered⟩ | ⟨last, same⟩
  · exact Lowering.handoff_of_loop lowered loops
  · unfold closingStatement at same
    split at same <;> cases same

end Bodies.Lowers

/-- The routine of a definition names the blocks that its statements do. -/
theorem Definition.references_routine (settings : Settings) (definition : Definition) :
    (definition.routine settings).references =
      definition.statements.flatMap Statement.references := by
  rw [Routine.references, routine, ← List.flatMap_def, List.flatMap_assoc]
  simp only [Statement.references_clauses]

section Units

variable {settings : Settings} {program : Program} {start count : Nat}

/-- All statements stand in definitions, so the routines name what the statements do. -/
theorem Program.references_routines (settings : Settings) (program : Program) :
    ((program.definitions settings).map (Definition.routine settings)).flatMap
        Routine.references =
      Bodies.references (Bodies.items settings program program.scan.arena).emitted := by
  obtain ⟨inside, nested, -⟩ := Bodies.items_nesting settings program program.scan.arena
  have all : (Bodies.items settings program program.scan.arena).emitted.filterMap Item.statement? =
      (program.definitions settings).flatMap Definition.statements := by
    rw [Bodies.statements_of_nesting nested, Program.definitions, Program.parts,
      Bodies.parts_definitions]
    rfl
  rw [Bodies.references, all, List.flatMap_map, List.flatMap_assoc]
  simp only [Definition.references_routine]

/-- What writing the bodies tells is what the walk tells. -/
theorem Bodies.noticesOf_generate (settings : Settings) (program : Program) (arena : Arena) :
    Event.noticesOf (generate settings program arena).emitted =
      (items settings program arena).emitted.filterMap Item.notice? := by
  obtain ⟨inside, nested, -⟩ := items_nesting settings program arena
  have blank : Item.At 0 .blank false := ⟨rfl, nofun⟩
  obtain ⟨⟨behind, printed, -⟩, -⟩ := printAll_nested settings blank nested
  rw [generate, generateOn_of_printed settings program arena printed]
  exact Item.noticesOf_printAll printed

/-- What a compilation tells about a clean program: what the scan found, and what the walk over the
bodies did. -/
theorem compile_emitted (valid : settings.invalidName? = none) (clean : program.Clean start)
    (written : (Bodies.items settings program program.scan.arena).outcome = .ok count) :
    (compile settings program).emitted =
      (Scan.ofProgram program).2
        ++ ((Bodies.items settings program program.scan.arena).emitted.filterMap Item.notice?
          ++ [.embedding (LittleEndian.words program.raw).length,
            .compiled program.scan.arena.size start]) := by
  rw [(clean.bodies_eq written).2] at written
  rw [compile_of_clean valid clean, SourceUnit.ofScan_of_ok valid written,
    Bodies.noticesOf_generate]

/-- The scan reports the block that the entry jump goes to, if it is none. -/
theorem Program.Clean.scan_reports (clean : program.Clean start) :
    (Scan.ofProgram program).2.filterMap Notice.reference? =
      program.scan.arena.missing [start] := by
  have notices : (Scan.ofProgram program).2 =
      program.scan.arena.blocks.map (fun block => Notice.blockStarts block.offset block.first)
        ++ ((if program.scan.arena.contains start then [] else [.entryUndeclared start])
          ++ [.blocksFound program.scan.arena.size]) := by
    simp only [Program.scan, Scan.ofProgram_of_entry clean.entry, clean.complete, Scan.closing]
  have found : (program.scan.arena.blocks.map fun block =>
      Notice.blockStarts block.offset block.first).filterMap Notice.reference? = [] := by
    simp [List.filterMap_eq_nil_iff, Notice.reference?]
  rw [notices, List.filterMap_append, found, List.filterMap_append]
  cases declared : program.scan.arena.contains start <;>
    simp [Arena.missing, declared, Notice.reference?]

/-- A compilation reports exactly the blocks that the entry point or a statement names and that are
none. -/
theorem compile_reports (valid : settings.invalidName? = none) (clean : program.Clean start)
    (written : (Bodies.items settings program program.scan.arena).outcome = .ok count) :
    (compile settings program).emitted.filterMap Notice.reference? =
      program.scan.arena.missing
        (start ::
          Bodies.references (Bodies.items settings program program.scan.arena).emitted) := by
  have walked : Bodies.reported (Bodies.items settings program program.scan.arena).emitted = _ :=
    Bodies.walk_reports written
  calc
    _ = (Scan.ofProgram program).2.filterMap Notice.reference?
        ++ (Bodies.reported (Bodies.items settings program program.scan.arena).emitted ++ []) := by
      rw [compile_emitted valid clean written, List.filterMap_append, List.filterMap_append]
      rfl
    _ = program.scan.arena.missing [start]
        ++ program.scan.arena.missing
          (Bodies.references (Bodies.items settings program program.scan.arena).emitted) := by
      rw [clean.scan_reports, walked, List.append_nil]
      rfl
    _ = _ := (Arena.missing_append _ _ _).symm

end Units

open SourceUnit in
/-- A usable unit names only declared blocks exactly if the compilation warned of no reference. The
return that closes a block by default goes to a declared block, and so does the continuation of a
loop, which is the block itself. -/
theorem unwarned_iff_references_declared {settings : Settings} {program : Program}
    {compilation : Compilation} (compiled : (compile settings program).outcome = .ok compilation)
    (usable : compilation.isUsable = true) (inside : program.NamesInside) :
    ∃ start routines, program.code[1]?.bind Word.index? = some start ∧
      compilation.source =
        preambleText settings ++ declarationsText settings program.scan.arena.offsets ++ "\n"
          ++ String.join ((program.parts settings).map (Part.text settings))
          ++ tableText settings (LittleEndian.words program.raw) ++ entryText settings start ∧
      Routine.readAll? settings (String.join ((program.parts settings).map (Part.text settings))) =
        some routines ∧
      ((∀ notice ∈ (compile settings program).emitted, ¬notice.WarnsOfReference) ↔
        ∀ block ∈ start :: routines.flatMap Routine.references,
          block ∈ program.scan.arena.offsets) ∧
      ∀ routine ∈ routines, ∃ block ∈ program.scan.arena.offsets,
        routine.name = settings.blockName block ∧
        (∀ opcode passesWords continuation,
          .call opcode passesWords continuation ∈ routine.statements.flatten →
            opcode.flow = .loop → continuation = some block) ∧
        ∃ lowered closing, routine.statements = lowered ++ closing ∧
          List.Forall₂ (fun instruction clauses => ∃ statement,
            (Lowering.statement settings program program.scan.arena block instruction).outcome =
              .ok statement ∧ clauses = statement.clauses)
            (program.blockInstructions block) lowered ∧
          ∀ target ∈ closing.flatten.flatMap Clause.references,
            target ∈ program.scan.arena.offsets := by
  obtain ⟨valid, start, count, clean, written, rfl⟩ := exists_clean_of_usable compiled usable
  refine ⟨start, _, (Scan.entry?_eq_some_iff.mp clean.entry).2,
    source_wholeUnit settings program start, clean.readAll?_bodies inside written valid, ?_,
    fun routine member => ?_⟩
  · rw [← Notice.filterMap_reference?_eq_nil_iff, compile_reports valid clean written,
      Arena.missing_eq_nil_iff, program.references_routines settings]
  · obtain ⟨definition, defined, rfl⟩ := List.mem_map.mp member
    have lowers := clean.lowers_definition written defined
    obtain ⟨lowered, closing, split, each, closed⟩ := lowers.closing_declared
    refine ⟨definition.block, ?_, rfl, ?_, lowered.map Statement.clauses,
      closing.map Statement.clauses, ?_, ?_, ?_⟩
    · rw [← clean.definitions_blocks written]
      exact List.mem_map_of_mem defined
    · intro opcode passesWords continuation called loops
      obtain ⟨clauses, found, called⟩ := List.mem_flatten.mp called
      obtain ⟨statement, listed, rfl⟩ := List.mem_map.mp found
      exact lowers.loop_continuation listed called loops
    · rw [Definition.routine, split, List.map_append]
    · rw [List.forall₂_map_right_iff]
      exact each.imp fun _ statement same => ⟨statement, same, rfl⟩
    · intro target named
      rw [← List.flatMap_def, List.flatMap_assoc] at named
      obtain ⟨statement, listed, named⟩ := List.mem_flatMap.mp named
      rw [statement.references_clauses] at named
      exact closed statement listed target named

/-- Runs a loop and jumps to an offset where no block starts. -/
def strayJump : Program := .bare #[90, 2, 0, 7, 85, 90, 4] (· == 2) []

example :
    (strayJump.definitions {}).map Definition.statements =
      [[.call ⟨.pushInt, [7], none, none, none, .stay⟩,
        .call ⟨.iFor, [], none, some 2, none, .slotIfSet⟩, .goto 4]] := by
  cbv

open SourceUnit in
theorem unwarned_iff_references_declared_strayJump :
    ∃ compilation start routines, (compile {} strayJump).outcome = .ok compilation ∧
      compilation.isUsable = true ∧ strayJump.NamesInside ∧
      compilation.source =
        preambleText {} ++ declarationsText {} strayJump.scan.arena.offsets ++ "\n"
          ++ String.join ((strayJump.parts {}).map (Part.text {}))
          ++ tableText {} (LittleEndian.words strayJump.raw) ++ entryText {} start ∧
      Routine.readAll? {} (String.join ((strayJump.parts {}).map (Part.text {}))) =
        some routines ∧
      ((∀ notice ∈ (compile {} strayJump).emitted, ¬notice.WarnsOfReference) ↔
        ∀ block ∈ start :: routines.flatMap Routine.references,
          block ∈ strayJump.scan.arena.offsets) ∧
      ∃ notice ∈ (compile {} strayJump).emitted, notice.WarnsOfReference := by
  have valid := Settings.default_valid
  have clean : strayJump.Clean 2 := ⟨by decide, by cbv⟩
  have written : (Bodies.items {} strayJump strayJump.scan.arena).outcome = .ok 1 := by cbv
  have compiled := compile_of_written valid clean written
  have inside : strayJump.NamesInside := Program.namesInside_bare _ _ _
  obtain ⟨start, routines, -, source, read, closed, -⟩ :=
    unwarned_iff_references_declared compiled rfl inside
  have reported : (compile {} strayJump).emitted.filterMap Notice.reference? = [4] := by
    rw [compile_reports valid clean written]
    cbv
  obtain ⟨notice, emitted, warns⟩ :=
    List.mem_filterMap.mp (reported.symm ▸ List.mem_singleton_self 4)
  exact ⟨_, start, routines, compiled, rfl, inside, source, read, closed, notice, emitted,
    Notice.warnsOfReference_iff.mpr ⟨4, warns⟩⟩

/-- The second line of the name goes to a block that there is not. -/
def strayName : String := "f\nreturn (void *)block99;"

/-- A function name with a second line leaves its comment and names a block that is not declared,
and nothing warns of it. -/
theorem name_refers_strayName :
    ∃ compilation, (compile {} (innerFunction strayName)).outcome = .ok compilation ∧
      compilation.isUsable = true ∧ (innerFunction strayName).scan.arena.offsets = [2] ∧
      (∀ notice ∈ (compile {} (innerFunction strayName)).emitted, ¬notice.WarnsOfReference) ∧
      ∃ routine,
        Routine.readAll? {}
            (String.join (((innerFunction strayName).parts {}).map (Part.text {}))) =
          some [routine] ∧
        99 ∈ routine.references := by
  have clean := InnerFunction.clean strayName
  have written := InnerFunction.written strayName
  have label : BodyLine.text {} (.label (some strayName)) =
      BodyLine.text {} (.label (some "f")) ++ BodyLine.text {} (.statement (.goto 99)) := by decide
  have reported : (compile {} (innerFunction strayName)).emitted.filterMap Notice.reference? =
      [] := by
    rw [compile_reports Settings.default_valid clean written]
    cbv
  exact ⟨_, compile_of_written Settings.default_valid clean written, rfl,
    InnerFunction.offsets strayName, Notice.filterMap_reference?_eq_nil_iff.mp reported, _,
    InnerFunction.readAll?_bodies label ⟨trivial, trivial⟩, by decide⟩

end ThreadedCode
