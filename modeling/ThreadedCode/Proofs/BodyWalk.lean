import ThreadedCode.Body.Item
import ThreadedCode.Proofs.BlockScan
import ThreadedCode.Proofs.LoweringOutcome

/-!
# Walking over the instructions

One step of the walk deals with one instruction. What a step emits and in which state it leaves the
walk is said once, in `step_outside`, `step_fails` and `step_writes`. From that follow, by induction
along the decoding, which bodies a walk opens, that they are never nested, and when it fails. What
kinds of items there can be is said by `Emitted`.
-/

namespace ThreadedCode

namespace Trace

variable {ι ε α β γ : Type}

theorem bind_assoc (trace : Trace ι ε α) (next : α → Trace ι ε β) (last : β → Trace ι ε γ) :
    trace >>= next >>= last = trace >>= fun value => next value >>= last := by
  obtain ⟨items, outcome⟩ := trace
  cases outcome with
  | error cause => rfl
  | ok value =>
      cases found : next value with
      | mk more outcome =>
          cases outcome with
          | error cause => simp [found]
          | ok result => simp [found]

theorem bind_of_ok {trace : Trace ι ε α} {value : α} (found : trace.outcome = .ok value)
    (next : α → Trace ι ε β) :
    trace >>= next = ⟨trace.emitted ++ (next value).emitted, (next value).outcome⟩ := by
  obtain ⟨items, outcome⟩ := trace
  cases found
  rfl

theorem bind_of_error {trace : Trace ι ε α} {cause : ε} (failed : trace.outcome = .error cause)
    (next : α → Trace ι ε β) : trace >>= next = ⟨trace.emitted, .error cause⟩ := by
  obtain ⟨items, outcome⟩ := trace
  cases failed
  rfl

theorem mem_emitted_bind {trace : Trace ι ε α} {next : α → Trace ι ε β} {item : ι}
    (member : item ∈ (trace >>= next).emitted) :
    item ∈ trace.emitted ∨
      ∃ value, trace.outcome = .ok value ∧ item ∈ (next value).emitted := by
  cases outcome : trace.outcome with
  | error cause =>
      rw [bind_of_error outcome] at member
      exact Or.inl member
  | ok value =>
      rw [bind_of_ok outcome] at member
      exact (List.mem_append.mp member).imp_right fun later => ⟨value, rfl, later⟩

end Trace

/-- The block whose body the item opens. -/
def Item.opens? : Item → Option Nat
  | .header block => some block
  | _ => none

namespace Bodies

/-- The blocks whose bodies the items open, in order. -/
def opened (items : List Item) : List Nat := items.filterMap Item.opens?

/-- Whether a body is open after the items, given whether one is open before them. There is no
answer if a body opens inside another, or if a statement or the end of a body is outside of all. -/
def nesting : Bool → List Item → Option Bool
  | inside, [] => some inside
  | inside, .notice _ :: rest | inside, .label _ :: rest => nesting inside rest
  | false, .header _ :: rest => nesting true rest
  | true, .line _ :: rest => nesting true rest
  | true, .footer :: rest => nesting false rest
  | true, .header _ :: _ | false, .line _ :: _ | false, .footer :: _ => none

theorem nesting_append (inside : Bool) (items more : List Item) :
    nesting inside (items ++ more) =
      (nesting inside items).bind fun after => nesting after more := by
  fun_induction nesting inside items <;> simp_all [nesting]

@[simp] theorem nesting_notices (inside : Bool) (notices : List Notice) :
    nesting inside (notices.map Item.notice) = some inside := by
  induction notices with
  | nil => rfl
  | cons notice rest ih => exact ih

@[simp] theorem opened_notices (notices : List Notice) : opened (notices.map Item.notice) = [] := by
  induction notices with
  | nil => rfl
  | cons notice rest ih => exact ih

@[simp] theorem opened_append (items more : List Item) :
    opened (items ++ more) = opened items ++ opened more := List.filterMap_append

@[simp] theorem opened_line (statement : Statement) (rest : List Item) :
    opened (.line statement :: rest) = opened rest := rfl

/-- The label in front of an instruction that starts a function. -/
def labels (program : Program) (offset : Nat) (opcode : Opcode) : List Item :=
  if opcode = .funStart then [.label (program.functionAt offset)] else []

section Entering

variable {program : Program} {arena : Arena} {offset : Nat} {opcode : Opcode}

@[simp] theorem nesting_labels (inside : Bool) :
    nesting inside (labels program offset opcode) = some inside := by
  unfold labels
  split <;> simp [nesting]

@[simp] theorem opened_labels : opened (labels program offset opcode) = [] := by
  unfold labels
  split <;> rfl

theorem entering_plain (plain : arena.contains offset = false) :
    entering program arena offset opcode = labels program offset opcode := by
  have none : arena.find? offset = none := by
    rwa [Arena.contains, Option.isSome_eq_false_iff, Option.isNone_iff_eq_none] at plain
  simp [entering, labels, none]

theorem entering_start (program : Program) (opcode : Opcode)
    (starts : arena.contains offset = true) :
    ∃ notice, entering program arena offset opcode =
      labels program offset opcode ++ [.notice notice, .header offset] := by
  obtain ⟨block, found⟩ := Option.isSome_iff_exists.mp starts
  exact ⟨.opening offset block.instructions block.first, by simp [entering, labels, found]⟩

theorem opened_entering :
    opened (entering program arena offset opcode) =
      if arena.contains offset then [offset] else [] := by
  cases starts : arena.contains offset with
  | false => simp [entering_plain starts]
  | true =>
      obtain ⟨notice, same⟩ := entering_start program opcode starts
      rw [same, opened_append, opened_labels]
      rfl

end Entering

theorem nesting_closing (last : Opcode) (next : Nat) (atEnd : Bool) (body : OpenBody) :
    nesting true (closing last next atEnd body) = some false := by
  unfold closing
  split
  · rfl
  · split
    · rfl
    · split <;> rfl

@[simp] theorem opened_closing (last : Opcode) (next : Nat) (atEnd : Bool) (body : OpenBody) :
    opened (closing last next atEnd body) = [] := by
  unfold closing
  split
  · rfl
  · split
    · rfl
    · split <;> rfl

/-- What the walk does with one instruction. -/
def step (settings : Settings) (program : Program) (arena : Arena) (instruction : Instruction)
    (current : Option OpenBody) : Trace Item Corruption (Option OpenBody) := do
  Trace.emitAll (entering program arena instruction.offset instruction.opcode)
  let current ←
    writing settings program arena instruction (entered arena instruction.offset current)
  leaving program arena instruction current

/-- Is the body closed after the instruction? -/
def closes (program : Program) (arena : Arena) (instruction : Instruction) : Bool :=
  decide (program.code.size ≤ instruction.next) || arena.contains instruction.next

theorem leaving_some (program : Program) (arena : Arena) (instruction : Instruction)
    (body : OpenBody) :
    leaving program arena instruction (some body) =
      ⟨if closes program arena instruction then
          closing instruction.opcode instruction.next (program.code.size ≤ instruction.next) body
        else [],
        .ok (if closes program arena instruction then none else some body)⟩ := by
  cases closed : closes program arena instruction with
  | false =>
      unfold closes at closed
      simp only [leaving, closed]
      rfl
  | true =>
      unfold closes at closed
      simp only [leaving, closed, if_true, Trace.emitAll, Trace.bind_ok, Trace.pure_eq,
        List.append_nil]

/-- What the walk writes for an instruction inside of its body: the statement, and the end of the
body if a block or the end of the stream follows. -/
def written (settings : Settings) (program : Program) (arena : Arena) (instruction : Instruction)
    (body : OpenBody) (statement : Statement) : List Item :=
  (Lowering.statement settings program arena body.block instruction).emitted.map Item.notice
    ++ (.line statement ::
      if closes program arena instruction then
        closing instruction.opcode instruction.next (program.code.size ≤ instruction.next)
          { body with left := body.left || statement.leaves }
      else [])

section Steps

variable (settings : Settings) (program : Program) (arena : Arena) (instruction : Instruction)
  (current : Option OpenBody)

theorem nesting_written (body : OpenBody) (statement : Statement) :
    nesting true (written settings program arena instruction body statement) =
      some (!closes program arena instruction) := by
  rw [written, nesting_append, nesting_notices]
  cases closes program arena instruction with
  | false => rfl
  | true => exact nesting_closing _ _ _ _

theorem opened_written (body : OpenBody) (statement : Statement) :
    opened (written settings program arena instruction body statement) = [] := by
  rw [written, opened_append, opened_notices, opened_line]
  cases closes program arena instruction with
  | false => rfl
  | true => exact opened_closing _ _ _ _

theorem walk_cons (ending : Ending) (bodies : Nat) (rest : List Instruction) :
    walk settings program arena ending current bodies (instruction :: rest) =
      step settings program arena instruction current >>= fun current =>
        walk settings program arena ending current
          (bodies + if arena.contains instruction.offset then 1 else 0) rest := by
  simp only [walk, step, Trace.bind_assoc]

variable {settings program arena instruction current}

theorem walk_cons_ok {after : Option OpenBody}
    (stepped : (step settings program arena instruction current).outcome = .ok after)
    (ending : Ending) (bodies : Nat) (rest : List Instruction) :
    walk settings program arena ending current bodies (instruction :: rest) =
      ⟨(step settings program arena instruction current).emitted
          ++ (walk settings program arena ending after
            (bodies + if arena.contains instruction.offset then 1 else 0) rest).emitted,
        (walk settings program arena ending after
          (bodies + if arena.contains instruction.offset then 1 else 0) rest).outcome⟩ := by
  rw [walk_cons, Trace.bind_of_ok stepped]

theorem walk_cons_error {cause : Corruption}
    (stepped : (step settings program arena instruction current).outcome = .error cause)
    (ending : Ending) (bodies : Nat) (rest : List Instruction) :
    walk settings program arena ending current bodies (instruction :: rest) =
      ⟨(step settings program arena instruction current).emitted, .error cause⟩ := by
  rw [walk_cons, Trace.bind_of_error stepped]

/-- An instruction before the first block leaves only a notice, and the label of its function. -/
theorem step_outside (outside : entered arena instruction.offset current = none) :
    step settings program arena instruction current =
      ⟨entering program arena instruction.offset instruction.opcode
        ++ [.notice (.unreachable instruction.opcode instruction.offset)], .ok none⟩ := by
  simp only [step, outside, writing, Trace.emitAll, Trace.emit]
  rfl

/-- An instruction of a body without a statement ends the walk. -/
theorem step_fails {body : OpenBody} {cause : Corruption}
    (inside : entered arena instruction.offset current = some body)
    (failed : (Lowering.statement settings program arena body.block instruction).outcome =
      .error cause) :
    step settings program arena instruction current =
      ⟨entering program arena instruction.offset instruction.opcode
        ++ (Lowering.statement settings program arena body.block instruction).emitted.map
          Item.notice, .error cause⟩ := by
  simp only [step, inside, writing, Trace.emitAll, Trace.mapEmitted, failed, Trace.bind_ok,
    Trace.bind_error]

/-- An instruction of a body leaves its statement, and closes the body if a block or the end of
the stream follows. -/
theorem step_writes {body : OpenBody} {statement : Statement}
    (inside : entered arena instruction.offset current = some body)
    (lowered : (Lowering.statement settings program arena body.block instruction).outcome =
      .ok statement) :
    step settings program arena instruction current =
      ⟨entering program arena instruction.offset instruction.opcode
          ++ written settings program arena instruction body statement,
        .ok (if closes program arena instruction then none
          else some { body with left := body.left || statement.leaves })⟩ := by
  simp only [step, inside, writing, Trace.emitAll, Trace.mapEmitted, lowered, Trace.bind_ok,
    Trace.emit, leaving_some, Trace.pure_eq, List.append_nil, List.append_assoc,
    List.singleton_append, written]

end Steps

/-- A body is open only in front of an instruction that continues it. -/
def Ready (program : Program) (arena : Arena) (cursor : Nat) (current : Option OpenBody) : Prop :=
  current.isSome → arena.contains cursor = false ∧ cursor < program.code.size

theorem ready_none (program : Program) (arena : Arena) (cursor : Nat) :
    Ready program arena cursor none := nofun

theorem ready_of_not_closes {program : Program} {arena : Arena} {instruction : Instruction}
    (stays : closes program arena instruction = false) (current : Option OpenBody) :
    Ready program arena instruction.next current := by
  intro _
  simp only [closes, Bool.or_eq_false_iff, decide_eq_false_iff_not] at stays
  exact ⟨stays.2, Nat.lt_of_not_le stays.1⟩

section Invariants

variable {settings : Settings} {program : Program} {arena : Arena} {instruction : Instruction}
  {current : Option OpenBody}

theorem entered_start {offset : Nat} (starts : arena.contains offset = true) :
    entered arena offset current = some ⟨offset, false⟩ := by
  simp [entered, starts]

theorem entered_plain {offset : Nat} (plain : arena.contains offset = false) :
    entered arena offset current = current := by
  simp [entered, plain]

/-- In front of the start of a block no body is open. -/
theorem Ready.none_of_start {offset : Nat} (ready : Ready program arena offset current)
    (starts : arena.contains offset = true) : current = none := by
  cases current with
  | none => rfl
  | some body => simp [(ready rfl).1] at starts

/-- The items in front of an instruction open a body exactly if the instruction belongs to one
that is not yet open. -/
theorem nesting_entering {offset : Nat} (ready : Ready program arena offset current)
    (opcode : Opcode) :
    nesting current.isSome (entering program arena offset opcode) =
      some (entered arena offset current).isSome := by
  cases starts : arena.contains offset with
  | false => simp [entering_plain starts, entered_plain starts]
  | true =>
      obtain ⟨notice, same⟩ := entering_start program opcode starts
      rw [same, ready.none_of_start starts, entered_start starts, nesting_append, nesting_labels]
      rfl

/-- What one step keeps: its items are in place, and the walk can go on after it. -/
theorem step_nesting (settings : Settings)
    (ready : Ready program arena instruction.offset current) :
    ∃ inside, nesting current.isSome (step settings program arena instruction current).emitted =
        some inside ∧
      ∀ after, (step settings program arena instruction current).outcome = .ok after →
        inside = after.isSome ∧ Ready program arena instruction.next after := by
  have entering := nesting_entering ready instruction.opcode
  cases entered : entered arena instruction.offset current with
  | none =>
      rw [entered] at entering
      refine ⟨false, ?_, ?_⟩
      · rw [step_outside entered, nesting_append, entering]
        rfl
      · intro after outcome
        rw [step_outside entered] at outcome
        cases outcome
        exact ⟨rfl, ready_none program arena _⟩
  | some body =>
      rw [entered] at entering
      cases lowered : (Lowering.statement settings program arena body.block
          instruction).outcome with
      | error cause =>
          refine ⟨true, ?_, ?_⟩
          · rw [step_fails entered lowered, nesting_append, entering]
            exact nesting_notices true _
          · intro after outcome
            rw [step_fails entered lowered] at outcome
            cases outcome
      | ok statement =>
          rw [step_writes entered lowered]
          refine ⟨!closes program arena instruction, ?_, ?_⟩
          · rw [nesting_append, entering]
            exact nesting_written settings program arena instruction body statement
          · intro after outcome
            cases outcome
            cases closed : closes program arena instruction with
            | true => exact ⟨rfl, ready_none program arena _⟩
            | false => exact ⟨rfl, ready_of_not_closes closed _⟩

/-- What a whole walk keeps: its items are in place, and if it comes to the end of the stream, no
body is left open. -/
theorem walk_nesting {cursor : Nat} {instructions : List Instruction} {ending : Ending}
    (run : Decodes program.code cursor instructions ending)
    (ready : Ready program arena cursor current) (bodies : Nat) :
    ∃ inside, nesting current.isSome
        (walk settings program arena ending current bodies instructions).emitted = some inside ∧
      ∀ count, (walk settings program arena ending current bodies instructions).outcome =
        .ok count → inside = false := by
  induction run generalizing current bodies with
  | complete past =>
      -- a body that is still open has instructions in front of it
      have none : current = none := by
        cases current with
        | none => rfl
        | some body => exact absurd (ready rfl).2 (Nat.not_lt.mpr past)
      subst none
      exact ⟨false, rfl, fun _ _ => rfl⟩
  | badOpcode found unknown => exact ⟨current.isSome, rfl, nofun⟩
  | @unresolved cursor word opcode cause found known failed =>
      refine ⟨(entered arena cursor current).isSome, ?_, nofun⟩
      rw [← nesting_entering ready opcode]
      exact congrArg (nesting _) (List.append_nil _)
  | @instruction instruction rest ending stands tail ih =>
      obtain ⟨inside, nested, continues⟩ := step_nesting settings ready
      cases stepped : (step settings program arena instruction current).outcome with
      | error cause =>
          rw [walk_cons_error stepped]
          exact ⟨inside, nested, nofun⟩
      | ok after =>
          obtain ⟨same, ready⟩ := continues after stepped
          obtain ⟨final, ended, closed⟩ := ih ready
            (bodies + if arena.contains instruction.offset then 1 else 0)
          rw [walk_cons_ok stepped]
          refine ⟨final, ?_, closed⟩
          rw [nesting_append, nested, same]
          exact ended

/-- A step opens the body of the block that starts at its instruction. -/
theorem step_opened {after : Option OpenBody}
    (stepped : (step settings program arena instruction current).outcome = .ok after) :
    opened (step settings program arena instruction current).emitted =
      if arena.contains instruction.offset then [instruction.offset] else [] := by
  cases entered : entered arena instruction.offset current with
  | none =>
      rw [step_outside entered, opened_append, opened_entering]
      exact List.append_nil _
  | some body =>
      cases lowered : (Lowering.statement settings program arena body.block
          instruction).outcome with
      | error cause =>
          rw [step_fails entered lowered] at stepped
          cases stepped
      | ok statement =>
          rw [step_writes entered lowered, opened_append, opened_entering, opened_written]
          exact List.append_nil _

/-- A walk to the end opens the bodies of exactly the blocks that start at its instructions, and
counts them. -/
theorem walk_opened {cursor : Nat} {instructions : List Instruction} {ending : Ending}
    (run : Decodes program.code cursor instructions ending) {bodies count : Nat}
    (finished : (walk settings program arena ending current bodies instructions).outcome =
      .ok count) :
    opened (walk settings program arena ending current bodies instructions).emitted =
        (instructions.map Instruction.offset).filter arena.contains ∧
      count = bodies + ((instructions.map Instruction.offset).filter arena.contains).length := by
  induction run generalizing current bodies with
  | complete past =>
      cases finished
      exact ⟨rfl, rfl⟩
  | badOpcode found unknown => cases finished
  | unresolved found known failed => cases finished
  | @instruction instruction rest ending stands tail ih =>
      cases stepped : (step settings program arena instruction current).outcome with
      | error cause =>
          rw [walk_cons_error stepped] at finished
          cases finished
      | ok after =>
          rw [walk_cons_ok stepped] at finished ⊢
          obtain ⟨same, counted⟩ := ih finished
          rw [opened_append, step_opened stepped, same, counted, List.map_cons]
          cases starts : arena.contains instruction.offset with
          | false => simp [starts]
          | true =>
              simp only [starts, if_true, List.filter_cons_of_pos, List.length_cons,
                List.singleton_append, true_and]
              omega

/-- Every instruction from the cursor on belongs to a body. -/
def Covered (program : Program) (arena : Arena) (cursor : Nat) (current : Option OpenBody) : Prop :=
  current.isSome ∨ arena.contains cursor ∨ program.code.size ≤ cursor

/-- A step over an instruction of a body fails just as reading its block operands does, and the
next instruction belongs to a body too. -/
theorem step_failsLike (settings : Settings) (stands : instruction.StandsIn program.code)
    (covered : Covered program arena instruction.offset current) :
    FailsLike (step settings program arena instruction current).outcome
        ((instruction.blockOperands program.code).mapM (Operands.readCount program.code)) ∧
      ∀ after, (step settings program arena instruction current).outcome = .ok after →
        Covered program arena instruction.next after := by
  obtain ⟨body, inside⟩ : ∃ body, entered arena instruction.offset current = some body := by
    cases starts : arena.contains instruction.offset with
    | true => exact ⟨_, entered_start starts⟩
    | false =>
        rw [entered_plain starts]
        rcases covered with isOpen | starts' | past
        · exact Option.isSome_iff_exists.mp isOpen
        · simp [starts] at starts'
        · exact absurd stands.offset_lt_size (Nat.not_lt.mpr past)
  have alike := Lowering.statement_failsLike stands settings arena body.block
  cases lowered : (Lowering.statement settings program arena body.block instruction).outcome with
  | error cause =>
      rw [lowered] at alike
      rw [step_fails inside lowered]
      exact ⟨alike, nofun⟩
  | ok statement =>
      rw [lowered] at alike
      rw [step_writes inside lowered]
      constructor
      · exact alike
      · intro after stepped
        cases stepped
        cases closed : closes program arena instruction with
        | false => exact Or.inl rfl
        | true =>
            -- a body is only closed where the next block starts or the stream ends
            simp only [closes, Bool.or_eq_true, decide_eq_true_eq] at closed
            exact Or.inr closed.symm

/-- From the first block on, a walk fails just as reading all block operands in order does. -/
theorem walk_failsLike_covered {cursor : Nat} {instructions : List Instruction} {ending : Ending}
    (run : Decodes program.code cursor instructions ending) (complete : ending = .complete)
    (covered : Covered program arena cursor current) (settings : Settings) (bodies : Nat) :
    FailsLike (walk settings program arena ending current bodies instructions).outcome
      ((instructions.flatMap (·.blockOperands program.code)).mapM
        (Operands.readCount program.code)) := by
  induction run generalizing current bodies with
  | complete past => exact FailsLike.ok _ _
  | badOpcode _ _ | unresolved _ _ _ => cases complete
  | @instruction instruction rest ending stands tail ih =>
      obtain ⟨alike, continues⟩ := step_failsLike settings stands covered
      rw [walk_cons, Trace.outcome_bind, List.flatMap_cons]
      exact alike.append fun after stepped => ih complete (continues after stepped) _

/-- The instructions that belong to a body: those from the first block on. -/
def owned (arena : Arena) (instructions : List Instruction) : List Instruction :=
  instructions.dropWhile fun instruction => !arena.contains instruction.offset

/-- A walk from the first instruction on fails just as reading the block operands of the
instructions that belong to a body does. -/
theorem walk_failsLike {cursor : Nat} {instructions : List Instruction} {ending : Ending}
    (run : Decodes program.code cursor instructions ending) (complete : ending = .complete)
    (settings : Settings) (arena : Arena) (bodies : Nat) :
    FailsLike (walk settings program arena ending none bodies instructions).outcome
      (((owned arena instructions).flatMap (·.blockOperands program.code)).mapM
        (Operands.readCount program.code)) := by
  induction run generalizing bodies with
  | complete past => exact FailsLike.ok _ _
  | badOpcode _ _ | unresolved _ _ _ => cases complete
  | @instruction instruction rest ending stands tail ih =>
      cases starts : arena.contains instruction.offset with
      | true =>
          have all : owned arena (instruction :: rest) = instruction :: rest := by
            simp [owned, starts]
          rw [all]
          exact walk_failsLike_covered (.instruction stands tail) complete (Or.inr (Or.inl starts))
            settings bodies
      | false =>
          have outside : entered arena instruction.offset none = none := entered_plain starts
          have skipped : owned arena (instruction :: rest) = owned arena rest := by
            simp [owned, starts]
          rw [skipped, walk_cons, step_outside outside]
          exact ih complete _

end Invariants

/-- The items that a walk over the visits can emit. -/
inductive Emitted (settings : Settings) (program : Program) (arena : Arena) (visits : List Visit) :
    Item → Prop
  | notice (content : Notice) : Emitted settings program arena visits (.notice content)
  | label {visit : Visit} (listed : visit ∈ visits) (starts : visit.opcode = .funStart) :
      Emitted settings program arena visits (.label (program.functionAt visit.offset))
  | header (block : Nat) : Emitted settings program arena visits (.header block)
  | lowered {block : Nat} {instruction : Instruction} {statement : Statement}
      (found : (Lowering.statement settings program arena block instruction).outcome =
        .ok statement) : Emitted settings program arena visits (.line statement)
  | goto (block : Nat) : Emitted settings program arena visits (.line (.goto block))
  | halt : Emitted settings program arena visits (.line .halt)
  | footer : Emitted settings program arena visits .footer

section Emissions

variable {settings : Settings} {program : Program} {arena : Arena} {visits : List Visit}
  {item : Item}

theorem emitted_of_mem_entering {visit : Visit} (listed : visit ∈ visits)
    (member : item ∈ entering program arena visit.offset visit.opcode) :
    Emitted settings program arena visits item := by
  rcases List.mem_append.mp member with label | header
  · by_cases starts : visit.opcode = .funStart
    · rw [if_pos starts] at label
      cases List.mem_singleton.mp label
      exact .label listed starts
    · rw [if_neg starts] at label
      cases label
  · cases found : arena.find? visit.offset with
    | none =>
        rw [found] at header
        cases header
    | some block =>
        simp only [found, List.mem_cons, List.not_mem_nil, or_false] at header
        rcases header with rfl | rfl
        · exact .notice _
        · exact .header _

theorem emitted_of_mem_writing {instruction : Instruction} {current : Option OpenBody}
    (member : item ∈ (writing settings program arena instruction current).emitted) :
    Emitted settings program arena visits item := by
  cases current with
  | none =>
      cases List.mem_singleton.mp member
      exact .notice _
  | some body =>
      rcases Trace.mem_emitted_bind member with notices | ⟨statement, found, line⟩
      · obtain ⟨notice, -, rfl⟩ := List.mem_map.mp notices
        exact .notice notice
      · cases List.mem_singleton.mp line
        exact .lowered found

theorem emitted_of_mem_closing {last : Opcode} {next : Nat} {atEnd : Bool} {body : OpenBody}
    (member : item ∈ closing last next atEnd body) :
    Emitted settings program arena visits item := by
  rcases List.mem_append.mp member with returned | footer
  · split at returned
    · cases returned
    · split at returned
      · cases List.mem_singleton.mp returned
        exact .halt
      · split at returned
        · rcases List.mem_cons.mp returned with rfl | returned
          · exact .notice _
          · cases List.mem_singleton.mp returned
            exact .halt
        · cases List.mem_singleton.mp returned
          exact .goto next
  · cases List.mem_singleton.mp footer
    exact .footer

theorem emitted_of_mem_step {instruction : Instruction} {current : Option OpenBody}
    (listed : ⟨instruction.offset, instruction.opcode⟩ ∈ visits)
    (member : item ∈ (step settings program arena instruction current).emitted) :
    Emitted settings program arena visits item := by
  rcases Trace.mem_emitted_bind member with before | ⟨_, -, member⟩
  · exact emitted_of_mem_entering listed before
  rcases Trace.mem_emitted_bind member with written | ⟨after, -, closed⟩
  · exact emitted_of_mem_writing written
  · cases after with
    | none => cases closed
    | some body =>
        rw [leaving_some] at closed
        split at closed
        · exact emitted_of_mem_closing closed
        · cases closed

theorem emitted_of_mem_walk {ending : Ending} {current : Option OpenBody} {bodies : Nat}
    {instructions : List Instruction}
    (within : Listing.visits ⟨instructions, ending⟩ ⊆ visits)
    (member : item ∈ (walk settings program arena ending current bodies instructions).emitted) :
    Emitted settings program arena visits item := by
  induction instructions generalizing current bodies with
  | nil =>
      cases ending with
      | complete =>
          cases List.mem_singleton.mp member
          exact .notice _
      | badOpcode offset value => cases member
      | unresolved offset opcode cause =>
          rcases Trace.mem_emitted_bind member with before | ⟨_, -, after⟩
          · exact emitted_of_mem_entering (within (List.mem_singleton_self _)) before
          · cases after
  | cons instruction rest ih =>
      rw [walk_cons] at member
      rw [Decodes.visits_cons, List.cons_subset] at within
      rcases Trace.mem_emitted_bind member with stepped | ⟨after, -, later⟩
      · exact emitted_of_mem_step within.1 stepped
      · exact ih within.2 later

/-- Every item of a program is of a kind that a walk can emit. -/
theorem emitted_of_mem_items (member : item ∈ (items settings program arena).emitted) :
    Emitted settings program arena (Listing.ofCode program.code).visits item :=
  emitted_of_mem_walk (List.Subset.refl _) member

end Emissions

end Bodies

end ThreadedCode
