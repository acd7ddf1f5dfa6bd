import ThreadedCode.Proofs.Compilation

/-!
# The verdict on a program

What is wrong with a program is said here without compiling it: the entry jump is missing, or an
instruction that decoding comes to is bad, or a block operand is negative, looked for in this order.
A compilation with valid settings reports exactly that, and only invalid settings make it fail.
-/

namespace ThreadedCode

/-- A negative word stands where an instruction that belongs to a block names another block. -/
def NegativeOperand (program : Program) (position : Nat) (word : Word) : Prop :=
  ∃ instruction : Instruction, Reached program.code instruction.offset ∧
    instruction.StandsIn program.code ∧
    (∃ block ∈ program.scan.arena.offsets, block ≤ instruction.offset) ∧
    position ∈ instruction.blockOperands program.code ∧
    program.code[position]? = some word ∧ word.toInt < 0

/-- What is wrong with a program, if anything is. -/
inductive Verdict (program : Program) : Option Corruption → Prop
  /-- The stream does not begin with a jump. -/
  | missingEntryJump (missing : ¬BeginsWithJump program.code) :
      Verdict program (some .missingEntryJump)
  /-- Decoding comes to a bad instruction. -/
  | badInstruction (begins : BeginsWithJump program.code) {offset : Nat} {cause : Corruption}
      (reached : Reached program.code offset) (fault : FaultAt program.code offset cause) :
      Verdict program (some cause)
  /-- All instructions are good, and this is the first negative block operand. -/
  | negativeOperand (begins : BeginsWithJump program.code)
      (decodes : ∀ offset cause, Reached program.code offset → ¬FaultAt program.code offset cause)
      {position : Nat} {word : Word} (negative : NegativeOperand program position word)
      (first : ∀ other value, NegativeOperand program other value → position ≤ other) :
      Verdict program (some (.badOperand position word))
  /-- Nothing is wrong. -/
  | sound (begins : BeginsWithJump program.code)
      (decodes : ∀ offset cause, Reached program.code offset → ¬FaultAt program.code offset cause)
      (located : ∀ position word, ¬NegativeOperand program position word) :
      Verdict program none

/-- Reading a list in order fails at its first bad element. -/
theorem except_mapM_eq_error {ε α β : Type} {f : α → Except ε β} {items : List α} {cause : ε}
    (failed : items.mapM f = .error cause) :
    ∃ before item after, items = before ++ item :: after ∧
      (∀ earlier ∈ before, ∃ value, f earlier = .ok value) ∧ f item = .error cause := by
  induction items with
  | nil => cases failed
  | cons item rest ih =>
      rw [List.mapM_cons] at failed
      cases read : f item with
      | error other =>
          rw [read] at failed
          cases failed
          exact ⟨[], item, rest, rfl, nofun, read⟩
      | ok value =>
          have later : rest.mapM f = .error cause := by
            rw [read] at failed
            cases others : rest.mapM f with
            | error other =>
                rw [others] at failed
                cases failed
                rfl
            | ok values =>
                rw [others] at failed
                cases failed
          obtain ⟨before, bad, after, rfl, good, found⟩ := ih later
          refine ⟨item :: before, bad, after, rfl, ?_, found⟩
          intro earlier member
          rcases List.mem_cons.mp member with rfl | member
          · exact ⟨value, read⟩
          · exact good earlier member

theorem except_mapM_eq_ok {ε α β : Type} {f : α → Except ε β} {items : List α} {values : List β}
    (read : items.mapM f = .ok values) {item : α} (member : item ∈ items) :
    ∃ value, f item = .ok value := by
  induction items generalizing values with
  | nil => cases member
  | cons first rest ih =>
      rw [List.mapM_cons] at read
      obtain ⟨value, found, others⟩ := except_bind_eq_ok.mp read
      obtain ⟨later, foundLater, -⟩ := except_bind_eq_ok.mp others
      rcases List.mem_cons.mp member with rfl | member
      · exact ⟨value, found⟩
      · exact ih foundLater member

namespace Bodies

variable {arena : Arena} {code : Array Word} {cursor : Nat} {instructions : List Instruction}
  {ending : Ending}

/-- The instructions that belong to a body are those at or after some block. -/
theorem mem_owned_iff (run : Decodes code cursor instructions ending)
    {instruction : Instruction} :
    instruction ∈ owned arena instructions ↔
      instruction ∈ instructions ∧
        ∃ block ∈ (instructions.map Instruction.offset).filter arena.contains,
          block ≤ instruction.offset := by
  induction run with
  | complete _ | badOpcode _ _ | unresolved _ _ _ => simp [owned]
  | @instruction first rest ending stands tail ih =>
      have later : ∀ other ∈ rest, first.offset < other.offset := fun other member =>
        Nat.lt_of_lt_of_le stands.offset_lt_next (tail.cursor_le member)
      cases starts : arena.contains first.offset with
      | true =>
          have all : owned arena (first :: rest) = first :: rest := by simp [owned, starts]
          rw [all]
          refine ⟨fun member => ⟨member, first.offset, by simp [starts], ?_⟩, And.left⟩
          rcases List.mem_cons.mp member with rfl | member
          · exact Nat.le_refl _
          · exact Nat.le_of_lt (later instruction member)
      | false =>
          have skipped : owned arena (first :: rest) = owned arena rest := by simp [owned, starts]
          have blocks : ((first :: rest).map Instruction.offset).filter arena.contains =
              (rest.map Instruction.offset).filter arena.contains := by simp [starts]
          rw [skipped, blocks, ih]
          refine ⟨fun found => ⟨List.mem_cons_of_mem first found.1, found.2⟩, ?_⟩
          rintro ⟨member, block, declared, before⟩
          refine ⟨?_, block, declared, before⟩
          rcases List.mem_cons.mp member with rfl | member
          · -- the first instruction comes before every block
            obtain ⟨other, found, rfl⟩ := List.mem_map.mp (List.mem_filter.mp declared).1
            exact absurd (later other found) (Nat.not_lt.mpr before)
          · exact member

/-- The positions of the block operands of all instructions that belong to a body. -/
def positions (arena : Arena) (code : Array Word) (instructions : List Instruction) : List Nat :=
  (owned arena instructions).flatMap (·.blockOperands code)

theorem owned_sublist (arena : Arena) (instructions : List Instruction) :
    (owned arena instructions).Sublist instructions := List.dropWhile_sublist _

theorem positions_ascending (run : Decodes code cursor instructions ending) (arena : Arena) :
    (positions arena code instructions).Pairwise (· < ·) := by
  have stands : ∀ instruction ∈ owned arena instructions, instruction.StandsIn code :=
    fun instruction member => run.stands ((owned_sublist arena instructions).subset member)
  rw [positions, List.pairwise_flatMap]
  refine ⟨fun instruction _ => instruction.blockOperands_ascending code, ?_⟩
  refine (run.next_le_offset.sublist (owned_sublist arena instructions)).imp_of_mem ?_
  intro earlier later inEarlier inLater apart position member other otherMember
  have below := ((stands earlier inEarlier).blockOperands_bounds member).2
  have above := ((stands later inLater).blockOperands_bounds otherMember).1
  omega

end Bodies

namespace Program

variable {program : Program} {start : Nat}

/-- If decoding comes to no bad instruction, it comes to the end. -/
theorem clean_of_decodes (entry : Scan.entry? program.code = some start)
    (decodes : ∀ offset cause, Reached program.code offset → ¬FaultAt program.code offset cause) :
    program.Clean start := by
  refine ⟨entry, ?_⟩
  cases corrupt : (Listing.ofCode program.code).ending.corruption? with
  | none => exact Ending.eq_complete corrupt
  | some cause =>
      obtain ⟨offset, reached, fault⟩ :=
        (Listing.decodes_ofCode program.code).exists_fault .first corrupt
      exact absurd fault (decodes offset cause reached)

namespace Clean

/-- The negative operands are the negative words at the positions that lowering reads. -/
theorem negativeOperand_iff (clean : program.Clean start) {position : Nat} {word : Word} :
    NegativeOperand program position word ↔
      position ∈ Bodies.positions program.scan.arena program.code program.instructions ∧
        program.code[position]? = some word ∧ word.toInt < 0 := by
  have owned (instruction : Instruction) :
      instruction ∈ Bodies.owned program.scan.arena program.instructions ↔ _ :=
    Bodies.mem_owned_iff clean.run
  simp only [clean.filter_contains] at owned
  simp only [Bodies.positions, List.mem_flatMap, owned]
  constructor
  · rintro ⟨instruction, reached, stands, declared, member, found, negative⟩
    have listed := reached.mem_instructions stands clean.run
    exact ⟨⟨instruction, ⟨listed, declared⟩, member⟩, found, negative⟩
  · rintro ⟨⟨instruction, ⟨listed, declared⟩, member⟩, found, negative⟩
    exact ⟨instruction, clean.run.reached .first listed, clean.run.stands listed, declared, member,
      found, negative⟩

theorem items_failsLike (clean : program.Clean start) (settings : Settings) :
    FailsLike (Bodies.items settings program program.scan.arena).outcome
      ((Bodies.positions program.scan.arena program.code program.instructions).mapM
        (Operands.readCount program.code)) := by
  rw [clean.items_eq]
  exact Bodies.walk_failsLike clean.run rfl settings program.scan.arena 0

/-- A position at which lowering reads lies in the stream. -/
theorem position_lt_size (clean : program.Clean start) {position : Nat}
    (member : position ∈ Bodies.positions program.scan.arena program.code program.instructions) :
    position < program.code.size := by
  obtain ⟨instruction, owned, operand⟩ := List.mem_flatMap.mp member
  have stands := clean.run.stands ((Bodies.owned_sublist _ _).subset owned)
  exact Nat.lt_of_lt_of_le (stands.blockOperands_bounds operand).2 stands.next_le_size

/-- If a body cannot be written, then because of the first negative operand. -/
theorem negative_of_error (clean : program.Clean start) {settings : Settings} {cause : Corruption}
    (failed : (Bodies.items settings program program.scan.arena).outcome = .error cause) :
    ∃ position word, cause = .badOperand position word ∧ NegativeOperand program position word ∧
      ∀ other value, NegativeOperand program other value → position ≤ other := by
  have read := (clean.items_failsLike settings).error_iff.mp failed
  obtain ⟨before, position, after, split, good, bad⟩ := except_mapM_eq_error read
  have member : position ∈
      Bodies.positions program.scan.arena program.code program.instructions := by
    rw [split]
    exact List.mem_append_right before List.mem_cons_self
  obtain ⟨word, found, negative, rfl⟩ :=
    Operands.readCount_eq_error (clean.position_lt_size member) bad
  refine ⟨position, word, rfl, clean.negativeOperand_iff.mpr ⟨member, found, negative⟩, ?_⟩
  intro other value otherNegative
  obtain ⟨otherMember, otherFound, below⟩ := clean.negativeOperand_iff.mp otherNegative
  have ascending := Bodies.positions_ascending clean.run program.scan.arena
  rw [split, List.pairwise_append, List.pairwise_cons] at ascending
  rw [split, List.mem_append, List.mem_cons] at otherMember
  rcases otherMember with earlier | rfl | later
  · -- everything before the position was read
    obtain ⟨count, counted⟩ := good other earlier
    rw [Operands.readCount_of_negative otherFound below] at counted
    cases counted
  · exact Nat.le_refl _
  · exact Nat.le_of_lt (ascending.2.1.1 other later)

/-- If all bodies can be written, no operand is negative. -/
theorem not_negative_of_ok (clean : program.Clean start) {settings : Settings} {count : Nat}
    (finished : (Bodies.items settings program program.scan.arena).outcome = .ok count)
    (position : Nat) (word : Word) : ¬NegativeOperand program position word := by
  intro negative
  obtain ⟨member, found, below⟩ := clean.negativeOperand_iff.mp negative
  obtain ⟨values, read⟩ := (clean.items_failsLike settings).exists_ok_iff.mp ⟨count, finished⟩
  obtain ⟨value, counted⟩ := except_mapM_eq_ok read member
  rw [Operands.readCount_of_negative found below] at counted
  cases counted

end Clean

end Program

namespace Verdict

variable {settings : Settings} {program : Program} {corruption? : Option Corruption}

/-- A compilation with valid settings reports what is wrong with the program. -/
theorem reported (verdict : Verdict program corruption?) (valid : settings.invalidName? = none) :
    ∃ compilation, (compile settings program).outcome = .ok compilation ∧
      compilation.corruption? = corruption? := by
  cases verdict with
  | missingEntryJump missing =>
      have absent : Scan.entry? program.code = none := by
        rw [beginsWithJump_iff, ← Option.isSome_iff_exists, Option.not_isSome_iff_eq_none]
          at missing
        exact missing
      exact ⟨_, compile_of_no_entry valid absent, rfl⟩
  | badInstruction begins reached fault =>
      obtain ⟨start, entry⟩ := beginsWithJump_iff.mp begins
      obtain ⟨before, after, -, tail⟩ := reached.divides (Listing.decodes_ofCode program.code)
      exact ⟨_, compile_of_fault valid entry (tail.of_fault fault), rfl⟩
  | @negativeOperand begins decodes position word negative first =>
      obtain ⟨start, entry⟩ := beginsWithJump_iff.mp begins
      have clean := Program.clean_of_decodes entry decodes
      cases written : (Bodies.items settings program program.scan.arena).outcome with
      | ok count => exact absurd negative (clean.not_negative_of_ok written position word)
      | error cause =>
          obtain ⟨other, value, rfl, otherNegative, least⟩ := clean.negative_of_error written
          have same : other = position :=
            Nat.le_antisymm (least position word negative) (first other value otherNegative)
          subst same
          obtain ⟨-, -, -, -, -, found, -⟩ := negative
          obtain ⟨-, -, -, -, -, otherFound, -⟩ := otherNegative
          cases Option.some.inj (found.symm.trans otherFound)
          exact ⟨_, compile_of_unwritten valid clean written, rfl⟩
  | sound begins decodes located =>
      obtain ⟨start, entry⟩ := beginsWithJump_iff.mp begins
      have clean := Program.clean_of_decodes entry decodes
      cases written : (Bodies.items settings program program.scan.arena).outcome with
      | error cause =>
          obtain ⟨position, word, -, negative, -⟩ := clean.negative_of_error written
          exact absurd negative (located position word)
      | ok count => exact ⟨_, compile_of_written valid clean written, rfl⟩

end Verdict

/-- There is a verdict on every program. -/
theorem exists_verdict (program : Program) : ∃ corruption?, Verdict program corruption? := by
  by_cases begins : BeginsWithJump program.code
  · by_cases faulty : ∃ offset cause, Reached program.code offset ∧
        FaultAt program.code offset cause
    · obtain ⟨offset, cause, reached, fault⟩ := faulty
      exact ⟨_, .badInstruction begins reached fault⟩
    · have decodes : ∀ offset cause, Reached program.code offset →
          ¬FaultAt program.code offset cause :=
        fun offset cause reached fault => faulty ⟨offset, cause, reached, fault⟩
      obtain ⟨start, entry⟩ := beginsWithJump_iff.mp begins
      have clean := Program.clean_of_decodes entry decodes
      cases written : (Bodies.items {} program program.scan.arena).outcome with
      | error cause =>
          obtain ⟨position, word, -, negative, first⟩ := clean.negative_of_error written
          exact ⟨_, .negativeOperand begins decodes negative first⟩
      | ok count => exact ⟨_, .sound begins decodes (clean.not_negative_of_ok written)⟩
  · exact ⟨_, .missingEntryJump begins⟩

/-- A compilation fails exactly if the settings are invalid, with the first invalid name. Otherwise
it reports exactly what is wrong with the program. -/
theorem compile_reports_verdict (settings : Settings) (program : Program) :
    (∀ failure, (compile settings program).outcome = .error failure ↔
      ∃ name, settings.invalidName? = some name ∧ failure = .invalidIdentifier name) ∧
    (settings.invalidName? = none →
      ∃ compilation, (compile settings program).outcome = .ok compilation ∧
        ∀ corruption?, compilation.corruption? = corruption? ↔ Verdict program corruption?) := by
  obtain ⟨found, verdict⟩ := exists_verdict program
  constructor
  · intro failure
    cases valid : settings.invalidName? with
    | none =>
        obtain ⟨compilation, compiled, -⟩ := verdict.reported valid
        rw [compiled]
        exact ⟨nofun, fun ⟨name, impossible, _⟩ => nomatch impossible⟩
    | some name =>
        rw [compile_of_invalid valid]
        constructor
        · rintro failed
          cases failed
          exact ⟨name, rfl, rfl⟩
        · rintro ⟨other, same, rfl⟩
          cases same
          rfl
  · intro valid
    obtain ⟨compilation, compiled, reports⟩ := verdict.reported valid
    refine ⟨compilation, compiled, fun corruption? => ⟨?_, fun other => ?_⟩⟩
    · rintro rfl
      rwa [reports]
    · obtain ⟨again, compiledAgain, same⟩ := other.reported valid
      rw [compiled] at compiledAgain
      cases compiledAgain
      exact same

/-- A block at 2 that pushes 7 and then jumps to a negative target. -/
def jumpsNowhere : Program := .bare #[90, 2, 0, 7, 90, -1] (· == 2) []

theorem compile_reports_verdict_jumpsNowhere :
    ∃ compilation, (compile {} jumpsNowhere).outcome = .ok compilation ∧
      compilation.corruption? = some (.badOperand 5 (-1)) := by
  have clean : jumpsNowhere.Clean 2 := ⟨by decide, by cbv⟩
  have unwritten : (Bodies.items {} jumpsNowhere jumpsNowhere.scan.arena).outcome =
      .error (.badOperand 5 (-1)) := by cbv
  obtain ⟨position, word, same, negative, first⟩ := clean.negative_of_error unwritten
  cases same
  obtain ⟨compilation, compiled, reports⟩ := (compile_reports_verdict {} jumpsNowhere).2 (by decide)
  refine ⟨compilation, compiled, (reports _).mpr (.negativeOperand ?_ ?_ negative first)⟩
  · exact beginsWithJump_iff.mpr ⟨2, clean.entry⟩
  · intro offset cause reached
    exact reached.not_fault clean.run cause

end ThreadedCode
