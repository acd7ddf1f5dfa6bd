import ThreadedCode.Body.Lowering
import ThreadedCode.Proofs.Decoding

/-!
# When an instruction has a statement

Lowering an instruction of the stream fails only at an operand that names a block, and only if that
operand is negative. Everything else that lowering reads was already checked when the operands were
resolved. Notices do not matter here, so a trace is looked at through its outcome.
-/

namespace ThreadedCode

namespace Trace

variable {ι κ ε α β : Type}

@[simp] theorem outcome_bind (trace : Trace ι ε α) (next : α → Trace ι ε β) :
    (trace >>= next).outcome = (trace.outcome >>= fun value => (next value).outcome) := by
  obtain ⟨items, outcome⟩ := trace
  cases outcome <;> rfl

@[simp] theorem outcome_map (trace : Trace ι ε α) (f : α → β) :
    (f <$> trace).outcome = f <$> trace.outcome := by
  obtain ⟨items, outcome⟩ := trace
  cases outcome <;> rfl

@[simp] theorem outcome_pure (value : α) : (pure value : Trace ι ε α).outcome = pure value := rfl

@[simp] theorem outcome_ofExcept (outcome : Except ε α) :
    (ofExcept outcome : Trace ι ε α).outcome = outcome := rfl

@[simp] theorem outcome_emit (item : ι) : (emit item : Trace ι ε Unit).outcome = pure () := rfl

@[simp] theorem outcome_emitAll (items : List ι) :
    (emitAll items : Trace ι ε Unit).outcome = pure () := rfl

@[simp] theorem outcome_mapEmitted (f : ι → κ) (trace : Trace ι ε α) :
    (trace.mapEmitted f).outcome = trace.outcome := rfl

end Trace

namespace Lowering

section Outcomes

variable (settings : Settings) (program : Program) (arena : Arena) (block : Nat)
  (instruction : Instruction) (span : Span) (operands : List Word)

@[simp] theorem refer_outcome (target : Nat) : (refer arena target).outcome = .ok target := rfl

@[simp] theorem referOperand_outcome (index : Nat) :
    (referOperand arena span operands index).outcome = operandBlock span operands index := by
  simp only [referOperand, Trace.outcome_bind, Trace.outcome_ofExcept, refer_outcome]
  exact bind_pure _

@[simp] theorem caseBlocks_outcome (arguments : Nat) (cases : List Nat) :
    (caseBlocks arena span operands arguments cases).outcome =
      cases.mapM fun case =>
        operandBlock span operands (2 + (arguments + 1) * case + arguments) := by
  induction cases with
  | nil => rfl
  | cons case rest ih =>
      simp only [caseBlocks, Trace.outcome_bind, referOperand_outcome, ih, Trace.outcome_pure,
        List.mapM_cons]

@[simp] theorem dispatchTable_outcome :
    (dispatchTable arena span operands).outcome = (do
      let cases ← operandBlock span operands 0
      let arguments ← operandBlock span operands 1
      (List.range cases).mapM fun case =>
        operandBlock span operands (2 + (arguments + 1) * case + arguments)) := by
  simp only [dispatchTable, Trace.outcome_bind, Trace.outcome_ofExcept, caseBlocks_outcome]

theorem store_outcome :
    (store settings program arena instruction operands).outcome =
      match instruction.opcode.flow with
      | .funMulti => do
        let blocks ← (dispatchTable arena instruction.span operands).outcome
        return some (.dispatch blocks)
      | .builtin =>
        .ok (if resumes settings program operands then some (.resume instruction.next) else none)
      | _ => .ok none := by
  cases flow : instruction.opcode.flow with
  | funMulti => simp only [store, flow, Trace.outcome_bind, Trace.outcome_pure]
  | builtin =>
      by_cases resumed : resumes settings program operands
      · simp only [store, flow, resumed, if_true]
        rfl
      · simp [store, flow, resumed]
  | _ => simp [store, flow]

theorem handoff_outcome :
    (handoff arena block instruction operands).outcome =
      match instruction.opcode.flow.handoff with
      | .none => .ok none
      | .nextBlock => .ok (some instruction.next)
      | .currentBlock => .ok (some block)
      | .firstOperand => some <$> operandBlock instruction.span operands 0 := by
  cases kind : instruction.opcode.flow.handoff with
  | firstOperand => simp [handoff, kind]
  | _ =>
      simp only [handoff, kind]
      rfl

theorem transfer_outcome :
    (transfer arena instruction operands).outcome =
      match instruction.opcode.flow.departure with
      | .fallThrough => .ok .stay
      | .staticTarget index => Transfer.goto <$> operandBlock instruction.span operands index
      | .runtimeTarget => .ok .slot
      | .guardedRuntimeTarget => .ok .slotIfSet := by
  cases kind : instruction.opcode.flow.departure <;> simp [transfer, kind]

theorem call_outcome :
    (call settings program arena block instruction operands).outcome = (do
      let store ← (store settings program arena instruction operands).outcome
      let handoff ← (handoff arena block instruction operands).outcome
      let transfer ← (transfer arena instruction operands).outcome
      return {
        opcode := instruction.opcode
        operands
        store
        handoff
        note := note program instruction.opcode operands
        transfer }) := by
  simp only [call, Trace.outcome_bind, Trace.outcome_emit, Trace.outcome_pure, pure_bind]

theorem statement_outcome :
    (statement settings program arena block instruction).outcome =
      match instruction.opcode.flow with
      | .jump =>
        Statement.goto <$> operandBlock instruction.span (instruction.operands program.code) 0
      | .conditionalJump =>
        Statement.branch instruction.opcode <$>
          operandBlock instruction.span (instruction.operands program.code) 0
      | _ =>
        Statement.call <$>
          (call settings program arena block instruction
            (instruction.operands program.code)).outcome := by
  simp only [statement, Trace.outcome_bind, Trace.outcome_emit, pure_bind]
  cases instruction.opcode.flow <;> simp

end Outcomes

end Lowering

/-- Two computations fail alike: either both give a result, or both end with the same error. -/
def FailsLike {ε α β : Type} (left : Except ε α) (right : Except ε β) : Prop :=
  left.map (fun _ => ()) = right.map fun _ => ()

namespace FailsLike

variable {ε α β γ δ : Type} {left : Except ε α} {right : Except ε β}

theorem refl (left : Except ε α) : FailsLike left left := rfl

theorem symm (alike : FailsLike left right) : FailsLike right left := Eq.symm alike

theorem ok (value : α) (other : β) : FailsLike (.ok value : Except ε α) (.ok other) := rfl

theorem map (f : α → γ) (alike : FailsLike left right) : FailsLike (f <$> left) right := by
  cases left <;> exact alike

/-- Steps that cannot fail may follow. -/
theorem bind {next : α → Except ε γ} (alike : FailsLike left right)
    (succeeds : ∀ value, ∃ result, next value = .ok result) :
    FailsLike (left >>= next) right := by
  cases left with
  | error cause => exact alike
  | ok value =>
      obtain ⟨result, found⟩ := succeeds value
      have same : (Except.ok value >>= next) = .ok result := found
      rw [same]
      exact alike

theorem error_iff (alike : FailsLike left right) {cause : ε} :
    left = .error cause ↔ right = .error cause := by
  cases left <;> cases right <;> simp_all [FailsLike, Except.map]

theorem exists_ok_iff (alike : FailsLike left right) :
    (∃ value, left = .ok value) ↔ ∃ value, right = .ok value := by
  cases left <;> cases right <;> simp_all [FailsLike, Except.map]

/-- A step after a step fails like reading one list after another. -/
theorem append {f : β → Except ε δ} {next : α → Except ε γ} {first second : List β}
    (alike : FailsLike left (first.mapM f))
    (continued : ∀ value, left = .ok value → FailsLike (next value) (second.mapM f)) :
    FailsLike (left >>= next) ((first ++ second).mapM f) := by
  rw [List.mapM_append]
  cases left with
  | error cause =>
      rw [alike.error_iff.mp rfl]
      rfl
  | ok value =>
      obtain ⟨found, read⟩ := alike.exists_ok_iff.mp ⟨value, rfl⟩
      rw [read]
      exact (((continued value rfl).symm.bind fun _ => ⟨_, rfl⟩)).symm

/-- Reading a list of one is reading its element. -/
theorem single (f : α → Except ε β) (item : α) : FailsLike (f item) ([item].mapM f) := by
  rw [List.mapM_cons, List.mapM_nil]
  cases f item with
  | error cause => rfl
  | ok value => rfl

end FailsLike

theorem except_mapM_congr {ε α β : Type} {f g : α → Except ε β} {items : List α}
    (same : ∀ item ∈ items, f item = g item) : items.mapM f = items.mapM g := by
  induction items with
  | nil => rfl
  | cons item rest ih =>
      rw [List.mapM_cons, List.mapM_cons, same item List.mem_cons_self,
        ih fun later member => same later (List.mem_cons_of_mem item member)]

/-- The number read at an offset, where there is one. -/
def countAt (code : Array Word) (offset : Nat) : Nat := (code[offset]?.bind Word.index?).getD 0

/-- The offsets of the operands that name blocks: the target of a jump, the body of a closure or a
coroutine, the function of a call, and the last word of every case of a dispatch table. -/
def Instruction.blockOperands (instruction : Instruction) (code : Array Word) : List Nat :=
  match instruction.opcode with
  | .jump | .jumpFail | .jumpFailR | .jumpFailN | .jumpNoFail | .jumpNoFailR | .pushFun | .coro =>
    [instruction.offset + 1]
  | .call => [instruction.offset + 2]
  | .funMulti =>
    let cases := countAt code (instruction.offset + 1)
    let arguments := countAt code (instruction.offset + 2)
    (List.range cases).map fun case =>
      instruction.offset + 3 + (arguments + 1) * case + arguments
  | _ => []

/-- What the flow of an opcode says about the layout of its operands. -/
theorem Opcode.shape_of_flow (opcode : Opcode) :
    match opcode.flow with
    | .jump | .conditionalJump | .pushFun | .builtin => opcode.shape = .fixed 1
    | .call => opcode.shape = .fixed 3
    | .coroutine => opcode.shape = .coroutine
    | .callMulti => opcode.shape = .callMulti
    | .funMulti => opcode.shape = .funMulti
    | _ => True := by
  cases opcode <;> simp only [flow, shape]

namespace Instruction

variable {instruction : Instruction} {code : Array Word}

theorem blockOperands_of_flow (instruction : Instruction) (code : Array Word) :
    instruction.blockOperands code =
      match instruction.opcode.flow with
      | .jump | .conditionalJump | .pushFun | .coroutine => [instruction.offset + 1]
      | .call => [instruction.offset + 2]
      | .funMulti =>
        (List.range (countAt code (instruction.offset + 1))).map fun case =>
          instruction.offset + 3 + (countAt code (instruction.offset + 2) + 1) * case
            + countAt code (instruction.offset + 2)
      | _ => [] := by
  unfold blockOperands
  cases instruction.opcode <;> rfl

/-- The operands of a dispatch table are its two counts and its cases. -/
theorem StandsIn.dispatchTable (stands : instruction.StandsIn code)
    (flow : instruction.opcode.flow = .funMulti) :
    code[instruction.offset + 1]?.bind Word.index? =
        some (countAt code (instruction.offset + 1)) ∧
      code[instruction.offset + 2]?.bind Word.index? =
        some (countAt code (instruction.offset + 2)) ∧
      instruction.span.arity = 2 + (countAt code (instruction.offset + 2) + 1)
        * countAt code (instruction.offset + 1) ∧
      instruction.next = instruction.offset + 1 + instruction.span.arity := by
  have shape := instruction.opcode.shape_of_flow
  simp only [flow] at shape
  have extent := stands.extent
  rw [shape] at extent
  obtain ⟨cases, arguments, counted, tagged, arity, next⟩ := Operands.extent_funMulti extent
  have first : countAt code (instruction.offset + 1) = cases := by simp [countAt, counted]
  have second : countAt code (instruction.offset + 2) = arguments := by simp [countAt, tagged]
  rw [first, second]
  exact ⟨counted, tagged, arity, next⟩

/-- A case of a dispatch table ends where the next one begins. -/
theorem case_lt {case cases arguments : Nat} (inside : case < cases) :
    (arguments + 1) * case + arguments < (arguments + 1) * cases := by
  calc
    (arguments + 1) * case + arguments < (arguments + 1) * case + (arguments + 1) := by omega
    _ = (arguments + 1) * (case + 1) := by rw [Nat.mul_succ]
    _ ≤ (arguments + 1) * cases := Nat.mul_le_mul_left _ inside

/-- The operands that name blocks lie between the opcode and the next instruction. -/
theorem StandsIn.blockOperands_bounds (stands : instruction.StandsIn code) {position : Nat}
    (member : position ∈ instruction.blockOperands code) :
    instruction.offset < position ∧ position < instruction.next := by
  have extent := stands.extent
  have shape := instruction.opcode.shape_of_flow
  rw [blockOperands_of_flow] at member
  cases flow : instruction.opcode.flow <;> simp only [flow, List.not_mem_nil] at member shape
  case jump | conditionalJump | pushFun =>
    rw [shape] at extent
    have next : instruction.next = _ := (Operands.extent_fixed extent).1
    rw [List.mem_singleton.mp member]
    omega
  case coroutine =>
    rw [shape] at extent
    have next : instruction.next = _ := (Operands.extent_coroutine extent).1
    have arity := (Operands.extent_coroutine extent).2
    rw [List.mem_singleton.mp member]
    omega
  case call =>
    rw [shape] at extent
    have next : instruction.next = _ := (Operands.extent_fixed extent).1
    rw [List.mem_singleton.mp member]
    omega
  case funMulti =>
    obtain ⟨-, -, arity, next⟩ := stands.dispatchTable flow
    obtain ⟨case, inside, rfl⟩ := List.mem_map.mp member
    have below : (countAt code (instruction.offset + 2) + 1) * case
        + countAt code (instruction.offset + 2) < _ := case_lt (List.mem_range.mp inside)
    omega

theorem blockOperands_ascending (instruction : Instruction) (code : Array Word) :
    (instruction.blockOperands code).Pairwise (· < ·) := by
  rw [blockOperands_of_flow]
  cases instruction.opcode.flow <;> simp only [List.pairwise_singleton, List.Pairwise.nil]
  case funMulti =>
    refine List.Pairwise.map _ (fun earlier later before => ?_) List.pairwise_lt_range
    have apart : (countAt code (instruction.offset + 2) + 1) * earlier
        < (countAt code (instruction.offset + 2) + 1) * later :=
      Nat.mul_lt_mul_of_pos_left before (Nat.succ_pos _)
    omega

end Instruction

namespace Operands

/-- A word of the stream that cannot be read as a block is negative. -/
theorem readCount_eq_error {code : Array Word} {position : Nat} {cause : Corruption}
    (inside : position < code.size) (failed : readCount code position = .error cause) :
    ∃ word, code[position]? = some word ∧ word.toInt < 0 ∧ cause = .badOperand position word := by
  have found := Array.getElem?_eq_getElem inside
  refine ⟨code[position], found, ?_⟩
  unfold readCount indexAt at failed
  rw [found] at failed
  cases index : code[position].index? with
  | some count => simp [index] at failed
  | none =>
      simp only [index, Except.error.injEq] at failed
      exact ⟨Word.index?_eq_none_iff.mp index, failed.symm⟩

theorem readCount_of_negative {code : Array Word} {position : Nat} {word : Word}
    (found : code[position]? = some word) (negative : word.toInt < 0) :
    readCount code position = .error (.badOperand position word) := by
  simp [readCount, indexAt, found, Word.index?_eq_none_iff.mpr negative]

end Operands

namespace Lowering

/-- An operand of a resolved instruction is read from the stream. -/
theorem operandBlock_of_resolve {opcode : Opcode} {code : Array Word} {cursor : Nat} {span : Span}
    (resolved : opcode.resolve code cursor = .ok span) {index : Nat}
    (reported : index < span.arity) :
    operandBlock span (span.words code) index = Operands.readCount code (cursor + index) := by
  rw [operandBlock, Opcode.words_getElem? resolved reported,
    (Opcode.resolve_eq_ok_iff.mp resolved).1]
  rfl

/-- An operand that names a block is read from the stream. -/
theorem operandBlock_eq {instruction : Instruction} {code : Array Word}
    (stands : instruction.StandsIn code) {index : Nat}
    (reported : index < instruction.span.arity) :
    operandBlock instruction.span (instruction.operands code) index =
      Operands.readCount code (instruction.offset + 1 + index) :=
  operandBlock_of_resolve stands.span reported

/-- The blocks of a dispatch table are read from the last words of its cases. -/
theorem dispatchTable_of_resolve {opcode : Opcode} {code : Array Word} {cursor : Nat} {span : Span}
    (resolved : opcode.resolve code cursor = .ok span) {cases arguments : Nat}
    (counted : code[cursor]?.bind Word.index? = some cases)
    (tagged : code[cursor + 1]?.bind Word.index? = some arguments)
    (arity : span.arity = 2 + (arguments + 1) * cases) (arena : Arena) :
    (dispatchTable arena span (span.words code)).outcome =
      (List.range cases).mapM fun case =>
        Operands.readCount code (cursor + 2 + (arguments + 1) * case + arguments) := by
  rw [dispatchTable_outcome, operandBlock_of_resolve resolved (by omega),
    operandBlock_of_resolve resolved (by omega), Nat.add_zero,
    Operands.readCount_eq_ok_iff.mpr counted, Operands.readCount_eq_ok_iff.mpr tagged]
  change (List.range cases).mapM _ = _
  apply except_mapM_congr
  intro case inside
  have below : (arguments + 1) * case + arguments < (arguments + 1) * cases :=
    Instruction.case_lt (List.mem_range.mp inside)
  rw [operandBlock_of_resolve resolved (by omega)]
  congr 1
  omega

theorem dispatchTable_eq {instruction : Instruction} {code : Array Word}
    (stands : instruction.StandsIn code) (flow : instruction.opcode.flow = .funMulti)
    (arena : Arena) :
    (dispatchTable arena instruction.span (instruction.operands code)).outcome =
      (instruction.blockOperands code).mapM (Operands.readCount code) := by
  obtain ⟨counted, tagged, arity, -⟩ := stands.dispatchTable flow
  rw [Instruction.blockOperands_of_flow, flow, List.mapM_map]
  exact dispatchTable_of_resolve stands.span counted tagged arity arena

/-- Lowering fails just as reading the operands that name blocks does. -/
theorem statement_failsLike {instruction : Instruction} {program : Program}
    (stands : instruction.StandsIn program.code) (settings : Settings) (arena : Arena)
    (block : Nat) :
    FailsLike (statement settings program arena block instruction).outcome
      ((instruction.blockOperands program.code).mapM (Operands.readCount program.code)) := by
  have shape := instruction.opcode.shape_of_flow
  have extent := stands.extent
  rw [statement_outcome, call_outcome, store_outcome, handoff_outcome, transfer_outcome,
    Instruction.blockOperands_of_flow]
  cases flow : instruction.opcode.flow <;>
    simp only [flow, Flow.handoff, Flow.departure] at shape ⊢
  case jump | conditionalJump =>
    rw [shape] at extent
    have arity := (Operands.extent_fixed extent).2
    rw [operandBlock_eq stands (by omega)]
    exact (FailsLike.single _ _).map _
  case call =>
    rw [shape] at extent
    have arity := (Operands.extent_fixed extent).2
    rw [operandBlock_eq stands (by omega)]
    exact (((FailsLike.single _ _).map _).bind fun _ => ⟨_, rfl⟩).map _
  case pushFun =>
    rw [shape] at extent
    have arity := (Operands.extent_fixed extent).2
    rw [operandBlock_eq stands (by omega)]
    exact (((FailsLike.single _ _).map _).bind fun _ => ⟨_, rfl⟩).map _
  case coroutine =>
    rw [shape] at extent
    have arity := (Operands.extent_coroutine extent).2
    rw [operandBlock_eq stands (by omega)]
    exact (((FailsLike.single _ _).map _).bind fun _ => ⟨_, rfl⟩).map _
  case callMulti =>
    rw [shape] at extent
    obtain ⟨arity, inside, table, located⟩ := Operands.extent_callMulti extent
    rw [operandBlock_eq stands (by omega), Operands.readCount_eq_ok_iff.mpr located]
    exact FailsLike.ok _ _
  case funMulti =>
    rw [dispatchTable_eq stands flow, Instruction.blockOperands_of_flow]
    simp only [flow]
    exact (((FailsLike.refl _).bind fun _ => ⟨_, rfl⟩).bind fun _ => ⟨_, rfl⟩).map _
  all_goals exact FailsLike.ok _ _

end Lowering

end ThreadedCode
