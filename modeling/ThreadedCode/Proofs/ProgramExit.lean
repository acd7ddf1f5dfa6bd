import ThreadedCode.Proofs.BodyText
import ThreadedCode.Proofs.StatementRuns

/-!
# Where the program ends

The instruction that ends the program is lowered to a plain handler call, after which control goes
on in the body. The return of null is added at the end of a body whose last instruction it is. So
null is returned right after the handler call exactly if nothing follows in the block, and otherwise
the rest of the block is run after the program has ended.
-/

namespace ThreadedCode

/-- The call of the handler that ends the program. -/
def Statement.exitCall : Statement :=
  .call { opcode := .exit, operands := [], store := none, handoff := none, note := none,
          transfer := .stay }

namespace Lowering

variable {settings : Settings} {program : Program} {arena : Arena} {block : Nat}
  {instruction : Instruction}

theorem statement_of_exit (stands : instruction.StandsIn program.code)
    (exits : instruction.opcode = .exit) :
    (Lowering.statement settings program arena block instruction).outcome =
      .ok .exitCall := by
  have extent := stands.extent
  rw [exits] at extent
  have arity : instruction.span.arity = 0 := (Operands.extent_fixed extent).2
  have none : instruction.operands program.code = [] := by
    rw [Instruction.operands, Span.words_eq_take_drop, arity, List.take_zero]
  rw [statement_outcome, call_outcome, store_outcome, handoff_outcome, transfer_outcome, none,
    exits]
  rfl

/-- No instruction is lowered to a return of null. -/
theorem statement_ne_halt {statement : Statement}
    (lowered : (Lowering.statement settings program arena block instruction).outcome =
      .ok statement) : statement ≠ .halt := by
  rintro rfl
  rw [statement_outcome] at lowered
  cases flow : instruction.opcode.flow <;> simp only [flow] at lowered <;>
    obtain ⟨value, -, same⟩ := except_map_eq_ok.mp lowered <;> cases same

end Lowering

namespace Bodies.Lowers

variable {settings : Settings} {program : Program} {arena : Arena} {block : Nat} {left : Bool}

/-- The statement of an instruction stands where the instruction does. It is followed by the
statement of the next instruction, and by what closes the body if there is none. -/
theorem split_at {before after : List Instruction} {instruction : Instruction}
    {statements : List Statement}
    (lowers : Lowers settings program arena block left (before ++ instruction :: after)
      statements) :
    ∃ front statement back,
      statements = front ++ statement :: back ∧ front.length = before.length ∧
      (Lowering.statement settings program arena block instruction).outcome = .ok statement ∧
      match after with
      | [] =>
        back = if left || (before ++ [instruction]).any (·.opcode.leaves) then []
          else [closingStatement program.code instruction]
      | next :: _ => ∃ following, back.head? = some following ∧
        (Lowering.statement settings program arena block next).outcome = .ok following := by
  obtain ⟨lowered, last, each, ends, -, rfl⟩ := lowers
  have aligned : ∃ front statement back, lowered = front ++ statement :: back ∧
      front.length = before.length ∧
      (Lowering.statement settings program arena block instruction).outcome = .ok statement ∧
      List.Forall₂ (fun instruction statement =>
        (Lowering.statement settings program arena block instruction).outcome = .ok statement)
        after back := by
    clear ends
    induction before generalizing lowered with
    | nil =>
        cases each with
        | cons same rest => exact ⟨[], _, _, rfl, rfl, same, rest⟩
    | cons first others ih =>
        cases each with
        | cons _ rest =>
            obtain ⟨front, statement, back, rfl, length, found⟩ := ih _ rest
            exact ⟨_ :: front, statement, back, rfl, congrArg (· + 1) length, found⟩
  obtain ⟨front, statement, back, rfl, length, found, rest⟩ := aligned
  refine ⟨front, statement, _, List.append_assoc _ _ _, length, found, ?_⟩
  cases rest with
  | nil =>
      rw [List.getLast?_concat, Option.some.injEq] at ends
      rw [ends]
      rfl
  | cons same _ => exact ⟨_, rfl, same⟩

end Bodies.Lowers

/-- In a usable unit an instruction that ends the program, and that control reaches, is a handler
call. Null is returned right after it exactly if it is the last instruction of its block. Otherwise
the statement of the next instruction follows. -/
theorem exit_returns_null_iff_last {settings : Settings} {program : Program}
    {compilation : Compilation} (compiled : (compile settings program).outcome = .ok compilation)
    (usable : compilation.isUsable = true) {block : Nat}
    (declared : block ∈ program.scan.arena.offsets) {before after : List Instruction}
    {exit : Instruction} (split : program.blockInstructions block = before ++ exit :: after)
    (exits : exit.opcode = .exit)
    (reached : ∀ earlier ∈ before, earlier.opcode.leaves = false) :
    ∃ definition front back,
      (program.definitions settings).filter (fun other => other.block == block) = [definition] ∧
      (∃ above below, compilation.source = above ++ definition.text settings ++ below) ∧
      definition.statements = front ++ .exitCall :: back ∧ front.length = before.length ∧
      (back.head? = some .halt ↔ after = []) ∧
      match after with
      | [] => back = [.halt]
      | next :: _ => ∃ following, back.head? = some following ∧
        (Lowering.statement settings program program.scan.arena block next).outcome =
          .ok following := by
  obtain ⟨valid, start, count, clean, written, rfl⟩ := exists_clean_of_usable compiled usable
  obtain ⟨definition, member, rfl, only⟩ := clean.exists_definition written declared
  have lowers := clean.lowers_definition written member
  rw [split] at lowers
  obtain ⟨front, statement, back, statements, length, found, rest⟩ := lowers.split_at
  have listed : exit ∈ program.blockInstructions definition.block := by
    rw [split]
    exact List.mem_append_right before List.mem_cons_self
  have stands := clean.run.stands (Program.mem_of_mem_blockInstructions listed)
  rw [Lowering.statement_of_exit stands exits] at found
  cases found
  refine ⟨definition, front, back, only, SourceUnit.definition_mem_wholeUnit member start,
    statements, length, ?_⟩
  cases after with
  | nil =>
      -- nothing in the block leaves it, so that the return at the end is there
      have stays : (before ++ [exit]).any (·.opcode.leaves) = false := by
        rw [List.any_append, List.any_eq_false.mpr fun earlier listed => by
          rw [reached earlier listed]
          exact Bool.false_ne_true]
        simp only [List.any_cons, exits, List.any_nil]
        rfl
      have closes : back = [.halt] := by
        rw [rest, stays]
        simp [Bodies.closingStatement, Machine.fallOff, exits]
      rw [closes]
      exact ⟨⟨fun _ => rfl, fun _ => rfl⟩, rfl⟩
  | cons next others =>
      obtain ⟨following, heads, lowered⟩ := rest
      refine ⟨⟨fun halts => ?_, nofun⟩, following, heads, lowered⟩
      rw [heads] at halts
      exact absurd (Option.some.inj halts) (Lowering.statement_ne_halt lowered)

/-- Pushes a number and ends the program. -/
def pushesAndExits : Program := .bare #[90, 2, 0, 7, 98] (· == 2) []

theorem exit_returns_null_iff_last_pushesAndExits :
    ∃ compilation before exit, (compile {} pushesAndExits).outcome = .ok compilation ∧
      compilation.isUsable = true ∧ 2 ∈ pushesAndExits.scan.arena.offsets ∧
      pushesAndExits.blockInstructions 2 = before ++ [exit] ∧ before.length = 1 ∧
      exit.opcode = .exit ∧ (∀ earlier ∈ before, earlier.opcode.leaves = false) ∧
      ∃ definition front,
        (pushesAndExits.definitions {}).filter (fun other => other.block == 2) = [definition] ∧
        (∃ above below, compilation.source = above ++ definition.text {} ++ below) ∧
        definition.statements = front ++ [.exitCall, .halt] ∧ front.length = 1 := by
  have clean : pushesAndExits.Clean 2 := ⟨by decide, by cbv⟩
  have written : (Bodies.items {} pushesAndExits pushesAndExits.scan.arena).outcome = .ok 1 := by
    cbv
  have compiled := compile_of_written Settings.default_valid clean written
  have declared : 2 ∈ pushesAndExits.scan.arena.offsets := by
    have offsets : pushesAndExits.scan.arena.offsets = [2] := by cbv
    rw [offsets]
    exact List.mem_singleton_self 2
  have split : pushesAndExits.blockInstructions 2 =
      [⟨2, .pushInt, ⟨3, 4, 1⟩⟩] ++ [⟨4, .exit, ⟨5, 5, 0⟩⟩] := by cbv
  have reached : ∀ earlier ∈ [(⟨2, .pushInt, ⟨3, 4, 1⟩⟩ : Instruction)],
      earlier.opcode.leaves = false := by
    intro earlier listed
    rw [List.mem_singleton.mp listed]
    rfl
  obtain ⟨definition, front, back, only, stands, statements, length, -, rfl⟩ :=
    exit_returns_null_iff_last compiled rfl declared split rfl reached
  exact ⟨_, _, _, compiled, rfl, declared, split, rfl, rfl, reached, definition, front, only,
    stands, statements, length⟩

/-- Ends the program in the middle of a block that goes back to itself. -/
def exitsMidway : Program := .bare #[90, 2, 98, 20, 90, 2] (· == 2) []

/-- What follows in the block is run after the program has ended, and the block returns itself. -/
theorem exit_runs_on_exitsMidway :
    ∃ compilation, (compile {} exitsMidway).outcome = .ok compilation ∧
      compilation.isUsable = true ∧
      (exitsMidway.blockInstructions 2).map Instruction.opcode = [.exit, .pop, .jump] ∧
      ∃ definition, exitsMidway.definitions {} = [definition] ∧ definition.block = 2 ∧
        definition.statements.take 1 = [.exitCall] ∧ .halt ∉ definition.statements ∧
        Routine.readAll? {} (String.join ((exitsMidway.parts {}).map (Part.text {}))) =
          some [definition.routine {}] ∧
        ∀ oracle, (definition.routine {}).run {} oracle =
          some ([.call .exit none none, .call .pop none none], some 2) := by
  have clean : exitsMidway.Clean 2 := ⟨by decide, by cbv⟩
  have written : (Bodies.items {} exitsMidway exitsMidway.scan.arena).outcome = .ok 1 := by cbv
  have compiled := compile_of_written Settings.default_valid clean written
  have defined : exitsMidway.definitions {} =
      [⟨2, [.statement .exitCall, .statement (.call ⟨.pop, [], none, none, none, .stay⟩),
        .statement (.goto 2)]⟩] := by cbv
  have read := clean.readAll?_bodies (Program.namesInside_bare _ _ _) written
    Settings.default_valid
  rw [defined] at read
  refine ⟨_, compiled, rfl, by cbv, _, defined, rfl, rfl, by decide, read, fun oracle => ?_⟩
  rw [Settings.default_unambiguous.run_routine]
  rfl

end ThreadedCode
