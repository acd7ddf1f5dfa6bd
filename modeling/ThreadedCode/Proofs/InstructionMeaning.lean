import ThreadedCode.Proofs.LoweringOutcome
import ThreadedCode.Proofs.Rendering

/-!
# The meaning of an instruction

The machine is given opcode by opcode and lowering goes by the flow of an opcode. Here both are
brought together: the statement of an instruction has the actions and the course that the machine
gives the instruction, and its note stays inside its comment.
-/

namespace ThreadedCode

namespace Machine

/-- Where control goes after a handler of the given departure. -/
def departs (code : Array Word) (instruction : Instruction) (reply : Reply) :
    Departure → Option Course
  | .fallThrough => some .onward
  | .staticTarget index => toOperand code instruction index
  | .runtimeTarget => some (.leaves reply.slot)
  | .guardedRuntimeTarget => some reply.ifSet

section Flows

variable (settings : Settings) (program : Program) (code : Array Word) (block : Nat)
  (instruction : Instruction)

theorem stored_of_flow :
    stored settings program instruction =
      match instruction.opcode.flow with
      | .funMulti => (do
        let cases ← (instruction.blockOperands program.code).mapM fun position =>
          program.code[position]?.bind Word.index?
        return some (.dispatch cases))
      | .builtin =>
        if (instruction.operand? program.code 0).bind program.builtinName =
          some settings.resumeBuiltin
        then some (some (.resume instruction.next))
        else some none
      | _ => some none := by
  unfold stored
  cases instruction.opcode <;> rfl

theorem continuation_of_flow :
    continuation code block instruction =
      match instruction.opcode.flow.handoff with
      | .none => some none
      | .nextBlock => some (some instruction.next)
      | .currentBlock => some (some block)
      | .firstOperand => some <$> instruction.operand? code 0 := by
  unfold continuation
  cases instruction.opcode <;> rfl

theorem course_of_flow (reply : Reply) :
    course code instruction reply =
      match instruction.opcode.flow with
      | .jump => toOperand code instruction 0
      | .conditionalJump =>
        if reply.holds then toOperand code instruction 0 else some .onward
      | flow => departs code instruction reply flow.departure := by
  unfold course
  cases instruction.opcode <;> rfl

theorem actions_of_flow :
    actions settings program block instruction =
      match instruction.opcode.flow with
      | .jump => some []
      | .conditionalJump => some [.test instruction.opcode]
      | _ => (do
        let stored ← stored settings program instruction
        let continuation ← continuation program.code block instruction
        let operands := Action.passed (instruction.operandWords program.code)
        return (stored.map Action.store).toList
          ++ [.call instruction.opcode operands continuation]) := by
  unfold actions
  cases instruction.opcode <;> rfl

end Flows

end Machine

section Operands

variable {instruction : Instruction} {code : Array Word}

/-- A handler gets the words that the machine passes. -/
theorem Instruction.StandsIn.operands_eq (stands : instruction.StandsIn code) :
    instruction.operands code = instruction.operandWords code := by
  rw [Instruction.operands, Span.words, stands.start, stands.start_add_arity]
  rfl

/-- A block that lowering reads from an operand is the one that the machine reads. -/
theorem Lowering.operand?_of_ok (stands : instruction.StandsIn code) {index target : Nat}
    (found : operandBlock instruction.span (instruction.operands code) index = .ok target) :
    instruction.operand? code index = some target := by
  have reported : index < instruction.span.arity := by
    apply Nat.lt_of_not_le
    intro past
    have missing : (instruction.operands code)[index]? = none := by
      rw [Instruction.operands, Span.words_eq_take_drop, List.getElem?_eq_none_iff]
      exact Nat.le_trans (List.length_take_le _ _) past
    rw [operandBlock, missing] at found
    cases found
  rw [operandBlock_eq stands reported] at found
  exact Operands.readCount_eq_ok_iff.mp found

/-- Words that can all be read as blocks are read alike with and without the cause of failure. -/
theorem Operands.mapM_of_ok {positions values : List Nat}
    (read : positions.mapM (readCount code) = .ok values) :
    (positions.mapM fun position => code[position]?.bind Word.index?) = some values := by
  induction positions generalizing values with
  | nil =>
      cases read
      rfl
  | cons position rest ih =>
      rw [List.mapM_cons] at read
      obtain ⟨value, first, others⟩ := except_bind_eq_ok.mp read
      obtain ⟨later, found, result⟩ := except_bind_eq_ok.mp others
      cases result
      rw [List.mapM_cons, ih found, readCount_eq_ok_iff.mp first]
      rfl

end Operands

section Lowered

variable {settings : Settings} {program : Program} {arena : Arena} {block : Nat}
  {instruction : Instruction}

theorem Machine.stored_of_store (stands : instruction.StandsIn program.code)
    {store : Option Store}
    (found : (Lowering.store settings program arena instruction
      (instruction.operands program.code)).outcome = .ok store) :
    stored settings program instruction = some store := by
  have shape := instruction.opcode.shape_of_flow
  rw [Lowering.store_outcome] at found
  rw [stored_of_flow]
  cases flow : instruction.opcode.flow <;> simp only [flow] at found shape ⊢
  case funMulti =>
    obtain ⟨blocks, table, result⟩ := except_bind_eq_ok.mp found
    cases result
    rw [Lowering.dispatchTable_eq stands flow] at table
    rw [Operands.mapM_of_ok table]
    rfl
  case builtin =>
    have extent := stands.extent
    rw [shape] at extent
    have arity := (Operands.extent_fixed extent).2
    have first := stands.operands_getElem? (show 0 < instruction.span.arity by omega)
    -- lowering looks at the operands it was given, the machine at the stream
    have named : instruction.operand? program.code 0 =
        (instruction.operands program.code)[0]?.bind Word.index? := by
      rw [first]
      rfl
    simp only [Lowering.resumes, ← named, beq_iff_eq] at found
    cases found
    split <;> rfl
  all_goals
    cases found
    rfl

theorem Machine.continuation_of_handoff (stands : instruction.StandsIn program.code)
    {handoff : Option Nat}
    (found : (Lowering.handoff arena block instruction
      (instruction.operands program.code)).outcome = .ok handoff) :
    continuation program.code block instruction = some handoff := by
  rw [Lowering.handoff_outcome] at found
  rw [continuation_of_flow]
  cases kind : instruction.opcode.flow.handoff <;> simp only [kind] at found ⊢
  case firstOperand =>
    obtain ⟨target, located, rfl⟩ := except_map_eq_ok.mp found
    rw [Lowering.operand?_of_ok stands located]
    rfl
  all_goals
    cases found
    rfl

theorem Machine.departs_of_transfer (stands : instruction.StandsIn program.code)
    {transfer : Transfer}
    (found : (Lowering.transfer arena instruction
      (instruction.operands program.code)).outcome = .ok transfer) (reply : Reply) :
    departs program.code instruction reply instruction.opcode.flow.departure =
      some (transfer.course reply) := by
  rw [Lowering.transfer_outcome] at found
  cases kind : instruction.opcode.flow.departure <;> simp only [kind] at found
  case staticTarget index =>
    obtain ⟨target, located, rfl⟩ := except_map_eq_ok.mp found
    rw [departs, toOperand, Lowering.operand?_of_ok stands located]
    rfl
  all_goals
    cases found
    rfl

/-- The call of a handler does what the machine does for an instruction that is no jump. -/
theorem Lowering.call_meaning (stands : instruction.StandsIn program.code) {handler : HandlerCall}
    (called : (call settings program arena block instruction
      (instruction.operands program.code)).outcome = .ok handler) :
    (do
      let stored ← Machine.stored settings program instruction
      let continuation ← Machine.continuation program.code block instruction
      let operands := Action.passed (instruction.operandWords program.code)
      return (stored.map Action.store).toList
        ++ [.call instruction.opcode operands continuation]) =
      some (Statement.call handler).actions ∧
    ∀ reply, Machine.departs program.code instruction reply instruction.opcode.flow.departure =
      some ((Statement.call handler).course reply) := by
  simp only [call_outcome, except_bind_eq_ok] at called
  obtain ⟨store, stored, handoff, handed, transfer, transferred, result⟩ := called
  cases result
  constructor
  · rw [Machine.stored_of_store stands stored, Machine.continuation_of_handoff stands handed,
      ← stands.operands_eq]
    rfl
  · intro reply
    exact Machine.departs_of_transfer stands transferred reply

/-- The statement of an instruction does what the machine does, and goes where the machine goes. -/
theorem Lowering.statement_meaning (stands : instruction.StandsIn program.code)
    {statement : Statement}
    (lowered : (Lowering.statement settings program arena block instruction).outcome =
      .ok statement) :
    Machine.actions settings program block instruction = some statement.actions ∧
      ∀ reply, Machine.course program.code instruction reply = some (statement.course reply) := by
  rw [statement_outcome] at lowered
  simp only [Machine.actions_of_flow, Machine.course_of_flow]
  cases flow : instruction.opcode.flow <;> simp only [flow] at lowered ⊢
  case jump =>
    obtain ⟨target, located, rfl⟩ := except_map_eq_ok.mp lowered
    have operand := operand?_of_ok stands located
    constructor
    · rfl
    · intro reply
      rw [Machine.toOperand, operand]
      rfl
  case conditionalJump =>
    obtain ⟨target, located, rfl⟩ := except_map_eq_ok.mp lowered
    have operand := operand?_of_ok stands located
    constructor
    · rfl
    · intro reply
      rw [Machine.toOperand, operand, Statement.course]
      split <;> rfl
  all_goals
    obtain ⟨handler, called, rfl⟩ := except_map_eq_ok.mp lowered
    have meaning := call_meaning stands called
    rw [flow] at meaning
    exact meaning

theorem Lowering.call_of_statement {handler : HandlerCall}
    (lowered : (Lowering.statement settings program arena block instruction).outcome =
      .ok (.call handler)) :
    (call settings program arena block instruction (instruction.operands program.code)).outcome =
      .ok handler := by
  rw [statement_outcome] at lowered
  cases flow : instruction.opcode.flow <;> simp only [flow] at lowered
  case jump | conditionalJump =>
    obtain ⟨target, -, same⟩ := except_map_eq_ok.mp lowered
    cases same
  all_goals
    obtain ⟨other, called, same⟩ := except_map_eq_ok.mp lowered
    cases same
    exact called

/-- The note of a handler call is that of its instruction. -/
theorem Lowering.note_of_statement {handler : HandlerCall}
    (lowered : (Lowering.statement settings program arena block instruction).outcome =
      .ok (.call handler)) :
    handler.note = note program instruction.opcode (instruction.operands program.code) := by
  have called := call_of_statement lowered
  simp only [call_outcome, except_bind_eq_ok] at called
  obtain ⟨store, -, handoff, -, transfer, -, result⟩ := called
  cases result
  rfl

/-- The note of a lowered statement stays inside its comment. -/
theorem Lowering.statement_guarded {statement : Statement}
    (lowered : (Lowering.statement settings program arena block instruction).outcome =
      .ok statement) : statement.Guarded := by
  cases statement with
  | goto _ | branch _ _ | halt => trivial
  | call handler =>
      intro text noted
      rw [note_of_statement lowered] at noted
      exact staysOpen_note noted

/-- No line of the note of a lowered statement ends with a carriage return, unless there is one in
the note of the instruction. -/
theorem Lowering.statement_unreturned {statement : Statement}
    (lowered : (Lowering.statement settings program arena block instruction).outcome =
      .ok statement)
    (feeds : ∀ text, note program instruction.opcode (instruction.operands program.code) =
      some text → '\r' ∉ text.toList) : statement.Unreturned := by
  cases statement with
  | goto _ | branch _ _ | halt => trivial
  | call handler =>
      intro text noted
      rw [note_of_statement lowered] at noted
      exact feeds text noted

end Lowered

/-- After a statement that leaves, control never goes on in the body. -/
theorem Statement.course_of_leaves {statement : Statement} (leaves : statement.leaves = true)
    (reply : Reply) : ∃ target, statement.course reply = .leaves target := by
  cases statement with
  | goto block => exact ⟨some block, rfl⟩
  | halt => exact ⟨none, rfl⟩
  | branch opcode block => cases leaves
  | call handler =>
      simp only [Statement.leaves] at leaves
      cases transfer : handler.transfer <;> rw [transfer] at leaves
      case goto block => exact ⟨some block, by rw [Statement.course, transfer]; rfl⟩
      case slot => exact ⟨reply.slot, by rw [Statement.course, transfer]; rfl⟩
      all_goals cases leaves

end ThreadedCode
