import Mathlib.Data.List.Forall2
import ThreadedCode.Proofs.Compilation
import ThreadedCode.Proofs.Execution

/-!
# The statements of a block

The definition of a block has one statement for each of its instructions, in order, and a return at
the end unless control always leaves before. This is read off the walk: from the start of a block on
it writes nothing but the body of that block, until the body is closed.
-/

namespace ThreadedCode

/-- Does control always leave the block? -/
def Departure.leaves : Departure → Bool
  | .staticTarget _ | .runtimeTarget => true
  | .fallThrough | .guardedRuntimeTarget => false

/-- Does control always leave the block after an instruction of the opcode? -/
def Opcode.leaves (opcode : Opcode) : Bool := opcode = .jump || opcode.flow.departure.leaves

theorem Opcode.leaves_of_flow (opcode : Opcode) :
    opcode.leaves =
      match opcode.flow with
      | .jump => true
      | flow => flow.departure.leaves := by
  cases opcode <;> rfl

namespace Lowering

variable {settings : Settings} {program : Program} {arena : Arena} {block : Nat}
  {instruction : Instruction}

theorem transfer_leaves {operands : List Word} {transfer : Transfer}
    (found : (Lowering.transfer arena instruction operands).outcome = .ok transfer) :
    transfer.leaves = instruction.opcode.flow.departure.leaves := by
  rw [transfer_outcome] at found
  cases kind : instruction.opcode.flow.departure <;> simp only [kind] at found
  case staticTarget index =>
    obtain ⟨target, -, rfl⟩ := except_map_eq_ok.mp found
    rfl
  all_goals
    cases found
    rfl

/-- Whether control leaves at a statement is settled by the opcode. -/
theorem statement_leaves {statement : Statement}
    (lowered : (Lowering.statement settings program arena block instruction).outcome =
      .ok statement) : statement.leaves = instruction.opcode.leaves := by
  rw [statement_outcome] at lowered
  rw [Opcode.leaves_of_flow]
  cases flow : instruction.opcode.flow <;> simp only [flow] at lowered ⊢
  case jump | conditionalJump =>
    obtain ⟨target, -, rfl⟩ := except_map_eq_ok.mp lowered
    rfl
  all_goals
    obtain ⟨handler, called, rfl⟩ := except_map_eq_ok.mp lowered
    simp only [call_outcome, except_bind_eq_ok] at called
    obtain ⟨store, -, handoff, -, transfer, transferred, result⟩ := called
    cases result
    have leaves := transfer_leaves transferred
    rw [flow] at leaves
    exact leaves

end Lowering

namespace Bodies

/-- The statements up to the end of the body. -/
def statements (items : List Item) : List Statement :=
  (lines items).filterMap BodyLine.statement?

theorem statements_labels (program : Program) (offset : Nat) (opcode : Opcode) (rest : List Item) :
    statements (labels program offset opcode ++ rest) = statements rest := by
  unfold labels
  split <;> rfl

theorem statements_notices (notices : List Notice) (rest : List Item) :
    statements (notices.map Item.notice ++ rest) = statements rest := by
  induction notices with
  | nil => rfl
  | cons notice others ih => exact ih

/-- The statement that closes a body which control can leave at its end. -/
def closingStatement (code : Array Word) (last : Instruction) : Statement :=
  match Machine.fallOff code last with
  | some next => .goto next
  | none => .halt

theorem statements_closing (code : Array Word) (last : Instruction) (body : OpenBody)
    (rest : List Item) :
    statements (closing last.opcode last.next (code.size ≤ last.next) body ++ rest) =
      if body.left then [] else [closingStatement code last] := by
  unfold closing closingStatement Machine.fallOff
  cases body.left with
  | true => rfl
  | false =>
      by_cases ends : last.opcode = .exit
      · simp [ends]
        rfl
      · by_cases past : code.size ≤ last.next
        · simp [ends, past]
          rfl
        · simp [ends, past]
          rfl

section Walks

variable {settings : Settings} {program : Program} {arena : Arena}

/-- The rest of the block that the instructions continue. -/
def continued (arena : Arena) (instructions : List Instruction) : List Instruction :=
  instructions.takeWhile fun instruction => !arena.contains instruction.offset

/-- A body is closed exactly where its block ends. -/
theorem continued_isEmpty {instruction : Instruction} {rest : List Instruction} {ending : Ending}
    (tail : Decodes program.code instruction.next rest ending) (complete : ending = .complete)
    (arena : Arena) : (continued arena rest).isEmpty = closes program arena instruction := by
  generalize same : instruction.next = cursor at tail
  cases tail with
  | complete past => simp [continued, closes, same, past]
  | badOpcode _ _ | unresolved _ _ _ => cases complete
  | @instruction next others ending stands tail =>
      have inside : ¬program.code.size ≤ instruction.next := by
        rw [same]
        exact Nat.not_le.mpr stands.offset_lt_size
      cases starts : arena.contains next.offset with
      | true => simp [continued, closes, same, starts]
      | false => simp [continued, closes, same, starts, Nat.not_le.mpr stands.offset_lt_size]

theorem statements_written (instruction : Instruction) (body : OpenBody) (statement : Statement)
    (behind : List Item) :
    statements (written settings program arena instruction body statement ++ behind) =
      statement :: if closes program arena instruction then
          if body.left || statement.leaves then []
          else [closingStatement program.code instruction]
        else statements behind := by
  rw [written, List.append_assoc, statements_notices]
  cases closes program arena instruction with
  | true => exact congrArg (List.cons statement) (statements_closing _ _ _ _)
  | false => rfl

/-- The instructions of a block are compiled to the statements: one for each of them, up to the one
that closes the body, and a return at the end unless control has left or always leaves before. -/
def Lowers (settings : Settings) (program : Program) (arena : Arena) (block : Nat) (left : Bool)
    (instructions : List Instruction) (statements : List Statement) : Prop :=
  ∃ lowered last,
    List.Forall₂ (fun instruction statement =>
      (Lowering.statement settings program arena block instruction).outcome = .ok statement)
      instructions lowered ∧
    instructions.getLast? = some last ∧ closes program arena last = true ∧
    statements = lowered ++
      if left || instructions.any (·.opcode.leaves) then []
      else [closingStatement program.code last]

/-- Every statement of a block is that of an instruction or the return at the end. -/
theorem Lowers.cases_mem {block : Nat} {left : Bool} {instructions : List Instruction}
    {statements : List Statement}
    (lowers : Lowers settings program arena block left instructions statements)
    {statement : Statement} (member : statement ∈ statements) :
    (∃ instruction ∈ instructions,
      (Lowering.statement settings program arena block instruction).outcome = .ok statement) ∨
    ∃ last, statement = closingStatement program.code last := by
  obtain ⟨lowered, last, each, -, -, rfl⟩ := lowers
  rcases List.mem_append.mp member with found | closing
  · refine Or.inl ?_
    clear member
    induction each with
    | nil => cases found
    | @cons instruction first rest others same _ ih =>
        rcases List.mem_cons.mp found with rfl | later
        · exact ⟨instruction, List.mem_cons_self, same⟩
        · obtain ⟨other, listed, lowered⟩ := ih later
          exact ⟨other, List.mem_cons_of_mem instruction listed, lowered⟩
  · split at closing
    · cases closing
    · exact Or.inr ⟨last, List.mem_singleton.mp closing⟩

/-- An instruction of a body adds its statement in front of those behind it. -/
theorem lowers_written {instruction : Instruction} {rest : List Instruction} (body : OpenBody)
    {statement : Statement} (tail : Decodes program.code instruction.next rest .complete)
    (lowered : (Lowering.statement settings program arena body.block instruction).outcome =
      .ok statement)
    {behind : List Item}
    (follows : closes program arena instruction = false →
      Lowers settings program arena body.block (body.left || statement.leaves)
        (continued arena rest) (statements behind)) :
    Lowers settings program arena body.block body.left (instruction :: continued arena rest)
      (statements (written settings program arena instruction body statement ++ behind)) := by
  have empty := continued_isEmpty tail rfl arena
  have leaves := Lowering.statement_leaves lowered
  rw [statements_written]
  cases closed : closes program arena instruction with
  | true =>
      rw [closed, List.isEmpty_iff] at empty
      refine ⟨[statement], instruction, .cons lowered (by rw [empty]; exact .nil), ?_, closed, ?_⟩
      · rw [empty]
        rfl
      · simp [empty, leaves]
  | false =>
      obtain ⟨others, last, forall₂, ends, closes, same⟩ := follows closed
      refine ⟨statement :: others, last, .cons lowered forall₂, ?_, closes, ?_⟩
      · rw [List.getLast?_cons, ends]
        rfl
      · simp [same, leaves, Bool.or_assoc]

/-- The rest of a body are the statements of the rest of its block. -/
theorem lowers_body {cursor : Nat} {instructions : List Instruction} {ending : Ending}
    (run : Decodes program.code cursor instructions ending) (complete : ending = .complete)
    {body : OpenBody} (ready : Ready program arena cursor (some body)) {bodies count : Nat}
    (finished : (walk settings program arena ending (some body) bodies instructions).outcome =
      .ok count) :
    Lowers settings program arena body.block body.left (continued arena instructions)
      (statements
        (walk settings program arena ending (some body) bodies instructions).emitted) := by
  induction run generalizing body bodies with
  | complete past => exact absurd (ready rfl).2 (Nat.not_lt.mpr past)
  | badOpcode _ _ | unresolved _ _ _ => cases complete
  | @instruction instruction rest ending stands tail ih =>
      subst complete
      have plain := (ready rfl).1
      have entered : entered arena instruction.offset (some body) = some body := entered_plain plain
      cases lowered : (Lowering.statement settings program arena body.block
          instruction).outcome with
      | error cause =>
          rw [walk_cons, step_fails entered lowered] at finished
          cases finished
      | ok statement =>
          have stepped := step_writes entered lowered
          rw [walk_cons_ok (congrArg Trace.outcome stepped)] at finished ⊢
          have all : continued arena (instruction :: rest) =
              instruction :: continued arena rest := by simp [continued, plain]
          rw [stepped, entering_plain plain, List.append_assoc, statements_labels, all]
          refine lowers_written body tail lowered fun stays => ?_
          rw [stays] at finished ⊢
          exact ih rfl (ready_of_not_closes stays _) finished

/-- Every definition of a walk is the body that the walk writes from the start of its block on. -/
theorem exists_start_of_mem {cursor : Nat} {instructions : List Instruction} {ending : Ending}
    (run : Decodes program.code cursor instructions ending) (complete : ending = .complete)
    {current : Option OpenBody} (ready : Ready program arena cursor current) {bodies count : Nat}
    (finished : (walk settings program arena ending current bodies instructions).outcome =
      .ok count)
    {definition : Definition}
    (member : definition ∈
      definitions (walk settings program arena ending current bodies instructions).emitted) :
    ∃ before first rest statement bodies,
      instructions = before ++ first :: rest ∧ first.offset = definition.block ∧
      first.StandsIn program.code ∧ Decodes program.code first.next rest .complete ∧
      (Lowering.statement settings program arena first.offset first).outcome = .ok statement ∧
      let after := if closes program arena first then none
        else some ⟨first.offset, statement.leaves⟩
      Ready program arena first.next after ∧
      (walk settings program arena .complete after bodies rest).outcome = .ok count ∧
      definition.lines =
        lines (written settings program arena first ⟨first.offset, false⟩ statement
          ++ (walk settings program arena .complete after bodies rest).emitted) := by
  induction run generalizing current bodies with
  | complete past => cases member
  | badOpcode _ _ | unresolved _ _ _ => cases complete
  | @instruction instruction rest ending stands tail ih =>
      subst complete
      cases stepped : (step settings program arena instruction current).outcome with
      | error cause =>
          rw [walk_cons_error stepped] at finished
          cases finished
      | ok after =>
          obtain ⟨inside, nested, continues⟩ := step_nesting settings ready
          have readyAfter := (continues after stepped).2
          rw [walk_cons_ok stepped] at finished member
          cases starts : arena.contains instruction.offset with
          | false =>
              have plain :
                  opened (step settings program arena instruction current).emitted = [] := by
                rw [step_opened stepped, starts]
                rfl
              rw [definitions_append plain] at member
              obtain ⟨before, first, others, statement, bodies, split, found⟩ :=
                ih rfl readyAfter finished member
              exact ⟨instruction :: before, first, others, statement, bodies,
                congrArg (List.cons instruction) split, found⟩
          | true =>
              have entered : entered arena instruction.offset current =
                  some ⟨instruction.offset, false⟩ := entered_start starts
              cases lowered : (Lowering.statement settings program arena instruction.offset
                  instruction).outcome with
              | error cause =>
                  rw [step_fails entered lowered] at stepped
                  cases stepped
              | ok statement =>
                  have same := step_writes entered lowered
                  have next : after = if closes program arena instruction then none
                      else some ⟨instruction.offset, statement.leaves⟩ := by
                    rw [same] at stepped
                    exact (Except.ok.inj stepped).symm
                  obtain ⟨notice, front⟩ := entering_start program instruction.opcode starts
                  rw [same, front, List.append_assoc, List.append_assoc,
                    definitions_append opened_labels, definitions_start] at member
                  rcases List.mem_cons.mp member with rfl | member
                  · subst next
                    exact ⟨[], instruction, rest, statement, _, rfl, rfl, stands, tail, lowered,
                      readyAfter, finished, rfl⟩
                  · rw [definitions_append
                      (opened_written settings program arena instruction _ statement)] at member
                    obtain ⟨before, first, others, statement, bodies, split, found⟩ :=
                      ih rfl readyAfter finished member
                    exact ⟨instruction :: before, first, others, statement, bodies,
                      congrArg (List.cons instruction) split, found⟩

end Walks

end Bodies

/-- The instructions of a block are instructions of the program. -/
theorem Program.mem_of_mem_blockInstructions {program : Program} {block : Nat}
    {instruction : Instruction} (member : instruction ∈ program.blockInstructions block) :
    instruction ∈ program.instructions := by
  unfold blockInstructions at member
  split at member
  · cases member
  · rename_i first rest found
    have listed : instruction ∈ first :: rest := by
      rcases List.mem_cons.mp member with rfl | later
      · exact List.mem_cons_self
      · exact List.mem_cons_of_mem first ((List.takeWhile_sublist _).subset later)
    rw [← found] at listed
    exact (List.dropWhile_sublist _).subset listed

/-- The instructions of a block, found anywhere in the program. -/
theorem Program.Clean.blockInstructions_eq {program : Program} {start : Nat}
    (clean : program.Clean start) {before rest : List Instruction} {first : Instruction}
    (split : program.instructions = before ++ first :: rest) :
    program.blockInstructions first.offset =
      first :: Bodies.continued program.scan.arena rest := by
  have ascending := clean.run.offsets_ascending
  rw [split, List.map_append, List.map_cons, List.pairwise_append] at ascending
  have skipped : program.instructions.dropWhile
      (fun instruction => instruction.offset != first.offset) = first :: rest := by
    rw [split, List.dropWhile_append_of_pos]
    · simp
    · intro earlier member
      have below := ascending.2.2 _ (List.mem_map_of_mem member) _ List.mem_cons_self
      simp only [bne_iff_ne]
      exact Nat.ne_of_lt below
  have marks : rest.takeWhile (fun instruction => !program.startsBlock instruction.offset) =
      Bodies.continued program.scan.arena rest := by
    apply takeWhile_congr
    intro instruction member
    rw [clean.contains_eq (List.mem_map_of_mem ?_)]
    rw [split]
    exact List.mem_append_right before (List.mem_cons_of_mem first member)
  rw [blockInstructions, skipped, ← marks]

/-- The text of a definition stands in every whole unit. -/
theorem SourceUnit.definition_mem_wholeUnit {settings : Settings} {program : Program}
    {definition : Definition} (member : definition ∈ program.definitions settings) (start : Nat) :
    ∃ before after, (wholeUnit settings program program.scan.arena start).source =
      before ++ definition.text settings ++ after := by
  obtain ⟨part, listed, found⟩ := List.mem_filterMap.mp member
  have same : part = .definition definition := by
    cases part with
    | label name => cases found
    | definition content =>
        cases found
        rfl
  subst same
  obtain ⟨earlier, later, split⟩ := List.append_of_mem listed
  have parts : Bodies.partsText settings
      (Bodies.items settings program program.scan.arena).emitted =
        String.join (earlier.map (Part.text settings)) ++ definition.text settings
          ++ String.join (later.map (Part.text settings)) := by
    have all : Bodies.parts false (Bodies.items settings program program.scan.arena).emitted =
      earlier ++ .definition definition :: later := split
    rw [Bodies.partsText, all, List.map_append, List.map_cons, String.join_append,
      String.join_cons, ← String.append_assoc]
    rfl
  refine ⟨preambleText settings ++ declarationsText settings program.scan.arena.offsets
      ++ ("\n" ++ String.join (earlier.map (Part.text settings))),
    String.join (later.map (Part.text settings))
      ++ tableText settings (LittleEndian.words program.raw) ++ entryText settings start, ?_⟩
  simp only [wholeUnit, parts, String.append_assoc]

/-- A block with several definitions would be declared several times. -/
theorem definitions_filter {definitions : List Definition} {definition : Definition}
    (distinct : (definitions.map Definition.block).Nodup) (member : definition ∈ definitions) :
    definitions.filter (fun other => other.block == definition.block) = [definition] := by
  obtain ⟨earlier, later, rfl⟩ := List.append_of_mem member
  rw [List.map_append, List.map_cons, List.nodup_append, List.nodup_cons] at distinct
  obtain ⟨-, ⟨notLater, -⟩, notEarlier⟩ := distinct
  have before : earlier.filter (fun other => other.block == definition.block) = [] := by
    rw [List.filter_eq_nil_iff]
    intro other listed same
    exact notEarlier _ (List.mem_map_of_mem listed) _ List.mem_cons_self (beq_iff_eq.mp same)
  have after : later.filter (fun other => other.block == definition.block) = [] := by
    rw [List.filter_eq_nil_iff]
    intro other listed same
    rw [← beq_iff_eq.mp same] at notLater
    exact notLater (List.mem_map_of_mem listed)
  simp [before, after]

/-- No block is defined twice. -/
theorem Program.Clean.definitions_nodup {program : Program} {start : Nat}
    (clean : program.Clean start) {settings : Settings} {count : Nat}
    (written : (Bodies.items settings program program.scan.arena).outcome = .ok count) :
    ((program.definitions settings).map Definition.block).Nodup := by
  rw [clean.definitions_blocks written]
  exact program.offsets_ascending.imp Nat.ne_of_lt

/-- Every declared block has one definition. -/
theorem Program.Clean.exists_definition {program : Program} {start : Nat}
    (clean : program.Clean start) {settings : Settings} {count : Nat}
    (written : (Bodies.items settings program program.scan.arena).outcome = .ok count)
    {block : Nat} (declared : block ∈ program.scan.arena.offsets) :
    ∃ definition ∈ program.definitions settings, definition.block = block ∧
      (program.definitions settings).filter (fun other => other.block == block) =
        [definition] := by
  rw [← clean.definitions_blocks written] at declared
  obtain ⟨definition, member, rfl⟩ := List.mem_map.mp declared
  exact ⟨definition, member, rfl, definitions_filter (clean.definitions_nodup written) member⟩

/-- Every definition that a program is compiled to has the statements of its block. -/
theorem Program.Clean.lowers_definition {program : Program} {start : Nat}
    (clean : program.Clean start) {settings : Settings} {count : Nat}
    (written : (Bodies.items settings program program.scan.arena).outcome = .ok count)
    {definition : Definition} (member : definition ∈ program.definitions settings) :
    Bodies.Lowers settings program program.scan.arena definition.block false
      (program.blockInstructions definition.block) definition.statements := by
  rw [Program.definitions, Program.parts, Bodies.parts_definitions, clean.items_eq] at member
  rw [clean.items_eq] at written
  obtain ⟨before, first, rest, statement, bodies, split, same, stands, tail, lowered, ready,
    finished, lines⟩ :=
    Bodies.exists_start_of_mem clean.run rfl (Bodies.ready_none _ _ _) written member
  rw [← same, clean.blockInstructions_eq split, Definition.statements, lines]
  refine Bodies.lowers_written ⟨first.offset, false⟩ tail lowered fun stays => ?_
  rw [stays] at ready finished ⊢
  exact Bodies.lowers_body tail rfl ready finished

end ThreadedCode
