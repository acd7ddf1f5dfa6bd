import ThreadedCode.Proofs.Verdict

/-!
# The evidence for a corruption

Whatever is reported to be wrong with a program can be looked up in its stream: the word that is
reported stands at the reported offset and is wrong in the reported way, and where an instruction is
too long, the stream ends behind the reported offset, which lies within that instruction. This holds
at every place that finds fault with a stream, so it holds of what a compilation reports.
-/

namespace ThreadedCode

/-- What the corruption says about the stream is true. The operands of a truncated instruction break
off behind the instruction that decoding came to. -/
def Corruption.Evident (code : Array Word) : Corruption → Prop
  | .missingEntryJump => ¬BeginsWithJump code
  | .badOpcode offset value =>
    code[offset]? = some value ∧ (value.toInt < 0 ∨ (Opcode.count : Int) ≤ value.toInt)
  | .truncated offset =>
    offset ≤ code.size ∧ ∃ decoded < offset, Reached code decoded ∧
      FaultAt code decoded (.truncated offset)
  | .badOperand offset value => code[offset]? = some value ∧ value.toInt < 0

namespace Operands

/-- What can be wrong with operands that start at a cursor: the stream ends too early, seen at or
behind the cursor, or a word of the stream that should be a count is negative. -/
inductive Misfit (code : Array Word) (cursor : Nat) : Corruption → Prop
  | truncated {offset : Nat} (behind : cursor ≤ offset) (inside : offset ≤ code.size) :
      Misfit code cursor (.truncated offset)
  | badOperand {offset : Nat} {value : Word} (found : code[offset]? = some value)
      (negative : value.toInt < 0) : Misfit code cursor (.badOperand offset value)

/-- The computation fails only for a misfit. -/
def OnlyMisfits {α : Type} (code : Array Word) (cursor : Nat) (result : Except Corruption α) :
    Prop :=
  ∀ cause, result = .error cause → Misfit code cursor cause

variable {α β : Type} {code : Array Word} {cursor : Nat}

theorem OnlyMisfits.pure (value : α) : OnlyMisfits code cursor (Pure.pure value) := nofun

/-- The steps of a computation may rely on the earlier ones. -/
theorem OnlyMisfits.bind {first : Except Corruption α} {next : α → Except Corruption β}
    (fails : OnlyMisfits code cursor first)
    (later : ∀ value, first = .ok value → OnlyMisfits code cursor (next value)) :
    OnlyMisfits code cursor (first >>= next) := by
  intro cause failed
  cases found : first with
  | error other =>
      rw [found] at failed
      cases failed
      exact fails _ found
  | ok value =>
      rw [found] at failed
      exact later value found cause failed

theorem skip_onlyMisfits {position : Nat} (behind : cursor ≤ position)
    (inside : position ≤ code.size) (words : Nat) :
    OnlyMisfits code cursor (skip code position words) := by
  intro cause failed
  have short : cause = .truncated position := by
    unfold skip at failed
    split at failed
    · split at failed
      · cases failed
      · exact (Except.error.inj failed).symm
    · exact (Except.error.inj failed).symm
  rw [short]
  exact .truncated behind inside

/-- A word that is no count is negative. -/
theorem indexAt_onlyMisfits {position : Nat} {word : Word} (found : code[position]? = some word) :
    OnlyMisfits code cursor (indexAt position (some word)) := by
  intro cause failed
  cases index : word.index? with
  | some count => simp [indexAt, index] at failed
  | none =>
      simp only [indexAt, index, Except.error.injEq] at failed
      rw [← failed]
      exact .badOperand found (Word.index?_eq_none_iff.mp index)

theorem readCount_onlyMisfits {position : Nat} (behind : cursor ≤ position)
    (inside : position ≤ code.size) : OnlyMisfits code cursor (readCount code position) := by
  unfold readCount
  cases found : code[position]? with
  | some word => exact indexAt_onlyMisfits found
  | none =>
      intro cause failed
      cases failed
      exact .truncated behind inside

/-- A table outside of the stream is held against the operand that locates it. -/
theorem tableArguments_onlyMisfits {slot : Nat} (behind : cursor ≤ slot) (inside : slot ≤ code.size)
    (table : Nat) : OnlyMisfits code cursor (tableArguments code slot table) := by
  unfold tableArguments
  split
  · rename_i word located
    obtain ⟨position, sum, found⟩ := Option.bind_eq_some_iff.mp located
    obtain ⟨-, rfl⟩ := Offset.add?_eq_some_iff.mp sum
    exact indexAt_onlyMisfits found
  · intro cause failed
    cases failed
    exact .truncated behind inside

theorem lt_size_of_readCount {position count : Nat} (read : readCount code position = .ok count) :
    position < code.size := by
  obtain ⟨word, found, -⟩ := readCount_iff.mp read
  exact (Array.getElem?_eq_some_iff.mp found).1

/-- Operands that do not resolve are a misfit. -/
theorem extent_onlyMisfits (inside : cursor ≤ code.size) (shape : OperandShape) :
    OnlyMisfits code cursor (extent code cursor shape) := by
  cases shape with
  | fixed words =>
      apply (skip_onlyMisfits (Nat.le_refl _) inside _).bind
      intro next _
      exact .pure _
  | coroutine =>
      apply (skip_onlyMisfits (Nat.le_refl _) inside _).bind
      intro counted skipped
      have bounds := le_of_skip skipped
      apply (readCount_onlyMisfits bounds.1 bounds.2).bind
      intro captures read
      have below := lt_size_of_readCount read
      apply (skip_onlyMisfits (by omega) below _).bind
      intro next _
      exact .pure _
  | callMulti =>
      apply (skip_onlyMisfits (Nat.le_refl _) inside _).bind
      intro slot skipped
      have bounds := le_of_skip skipped
      apply (readCount_onlyMisfits bounds.1 bounds.2).bind
      intro table read
      have below := lt_size_of_readCount read
      apply (tableArguments_onlyMisfits bounds.1 bounds.2 _).bind
      intro arguments _
      apply (skip_onlyMisfits (by omega) below _).bind
      intro tags tagged
      have beyond := le_of_skip tagged
      apply (skip_onlyMisfits (by omega) beyond.2 _).bind
      intro next _
      exact .pure _
  | funStart =>
      apply (readCount_onlyMisfits (Nat.le_refl _) inside).bind
      intro parameters read
      have below := lt_size_of_readCount read
      apply (skip_onlyMisfits (by omega) below _).bind
      intro counted skipped
      have bounds := le_of_skip skipped
      apply (readCount_onlyMisfits (by omega) bounds.2).bind
      intro locals counted
      have past := lt_size_of_readCount counted
      apply (skip_onlyMisfits (by omega) past _).bind
      intro frame framed
      have beyond := le_of_skip framed
      apply (skip_onlyMisfits (by omega) beyond.2 _).bind
      intro next _
      exact .pure _
  | funMulti =>
      apply (readCount_onlyMisfits (Nat.le_refl _) inside).bind
      intro cases read
      have below := lt_size_of_readCount read
      apply (readCount_onlyMisfits (by omega) below).bind
      intro arguments counted
      have past := lt_size_of_readCount counted
      split
      · intro cause failed
        cases failed
        exact .truncated (Nat.le_refl _) inside
      · apply (skip_onlyMisfits (by omega) past _).bind
        intro next _
        exact .pure _

end Operands

/-- A word that stands for no opcode is negative, or not below the number of opcodes. -/
theorem Opcode.outside_of_ofWord? {word : Word} (unknown : ofWord? word = none) :
    word.toInt < 0 ∨ (count : Int) ≤ word.toInt := by
  cases index : word.index? with
  | none => exact Or.inl (Word.index?_eq_none_iff.mp index)
  | some encoding =>
      right
      rw [ofWord?, index, Option.bind_some, Array.getElem?_eq_none_iff] at unknown
      rw [Word.index?_eq_some_iff.mp index]
      exact Int.ofNat_le.mpr unknown

/-- What is wrong with an instruction that decoding comes to can be seen there. -/
theorem FaultAt.evident {code : Array Word} {offset : Nat} {cause : Corruption}
    (fault : FaultAt code offset cause) (reached : Reached code offset) : cause.Evident code := by
  cases fault with
  | badOpcode found unknown => exact ⟨found, Opcode.outside_of_ofWord? unknown⟩
  | @unresolved _ opcode _ found known failed =>
      have inside : offset + 1 ≤ code.size := (Array.getElem?_eq_some_iff.mp found).1
      have extent : Operands.OnlyMisfits code (offset + 1) (opcode.resolve code (offset + 1)) :=
        (Operands.extent_onlyMisfits inside opcode.shape).bind fun _ _ => .pure _
      cases extent cause failed with
      | truncated behind inside =>
          exact ⟨inside, offset, behind, reached, .unresolved found known failed⟩
      | badOperand found negative => exact ⟨found, negative⟩

namespace Bodies

variable {settings : Settings} {program : Program} {arena : Arena}

/-- An instruction that cannot be written has a negative operand where it names a block. -/
theorem step_evident {instruction : Instruction} (stands : instruction.StandsIn program.code)
    {current : Option OpenBody} {cause : Corruption}
    (failed : (step settings program arena instruction current).outcome = .error cause) :
    cause.Evident program.code := by
  cases inside : entered arena instruction.offset current with
  | none =>
      rw [step_outside inside] at failed
      cases failed
  | some body =>
      cases lowered :
          (Lowering.statement settings program arena body.block instruction).outcome with
      | ok statement =>
          rw [step_writes inside lowered] at failed
          cases failed
      | error other =>
          rw [step_fails inside lowered] at failed
          cases failed
          have alike := Lowering.statement_failsLike stands settings arena body.block
          have unread := alike.error_iff.mp lowered
          obtain ⟨before, position, after, split, -, bad⟩ := except_mapM_eq_error unread
          have member : position ∈ instruction.blockOperands program.code := by simp [split]
          have bound := (stands.blockOperands_bounds member).2
          obtain ⟨word, found, negative, rfl⟩ :=
            Operands.readCount_eq_error (Nat.lt_of_lt_of_le bound stands.next_le_size) bad
          exact ⟨found, negative⟩

/-- A walk that fails stops at a bad instruction, or at one that cannot be written. -/
theorem walk_evident {cursor : Nat} {instructions : List Instruction} {ending : Ending}
    (run : Decodes program.code cursor instructions ending) (start : Reached program.code cursor)
    {current : Option OpenBody} {bodies : Nat} {cause : Corruption}
    (failed : (walk settings program arena ending current bodies instructions).outcome =
      .error cause) : cause.Evident program.code := by
  induction run generalizing current bodies with
  | complete past => cases failed
  | badOpcode found unknown =>
      cases failed
      exact (FaultAt.badOpcode found unknown).evident start
  | unresolved found known unread =>
      cases failed
      exact (FaultAt.unresolved found known unread).evident start
  | @instruction instruction rest ending stands tail ih =>
      cases stepped : (step settings program arena instruction current).outcome with
      | error other =>
          rw [walk_cons_error stepped] at failed
          cases failed
          exact step_evident stands stepped
      | ok after =>
          rw [walk_cons_ok stepped] at failed
          exact ih (start.next stands) failed

theorem generateOn_evident {page : Page} {cause : Corruption}
    (failed : (generateOn page settings program arena).outcome = .error (.corrupt cause)) :
    cause.Evident program.code := by
  obtain ⟨behind, generated, -⟩ := generateOn_eq settings program arena page
  rw [generated] at failed
  cases written : (items settings program arena).outcome with
  | ok count =>
      rw [written] at failed
      cases failed
  | error other =>
      rw [written] at failed
      cases failed
      exact walk_evident (Listing.decodes_ofCode program.code) .first written

end Bodies

theorem Program.scan_evident {program : Program} {cause : Corruption}
    (corrupt : program.scan.corruption? = some cause) : cause.Evident program.code := by
  cases entry : Scan.entry? program.code with
  | none =>
      rw [scan_of_no_entry entry] at corrupt
      cases corrupt
      intro begins
      obtain ⟨start, found⟩ := beginsWithJump_iff.mp begins
      rw [entry] at found
      cases found
  | some start =>
      rw [scan_of_entry entry] at corrupt
      obtain ⟨offset, reached, fault⟩ :=
        (Listing.decodes_ofCode program.code).exists_fault .first corrupt
      exact fault.evident reached

theorem Verdict.evident {program : Program} {cause : Corruption}
    (verdict : Verdict program (some cause)) : cause.Evident program.code := by
  cases verdict with
  | missingEntryJump missing => exact missing
  | badInstruction begins reached fault => exact fault.evident reached
  | negativeOperand begins decodes negative first =>
      obtain ⟨instruction, -, -, -, -, found, below⟩ := negative
      exact ⟨found, below⟩

/-- Every corruption that the scan of a program reports, that writing bodies reports, for any arena
and thus for that of a clean scan, or that a compilation reports, is evident in the stream. -/
theorem reported_corruption_evident (program : Program) (cause : Corruption) :
    (program.scan.corruption? = some cause → cause.Evident program.code) ∧
    (∀ (page : Page) (settings : Settings) (arena : Arena),
      (Bodies.generateOn page settings program arena).outcome = .error (.corrupt cause) →
        cause.Evident program.code) ∧
    (∀ (settings : Settings) (compilation : Compilation),
      (compile settings program).outcome = .ok compilation →
        compilation.corruption? = some cause → cause.Evident program.code) := by
  refine ⟨Program.scan_evident, fun page settings arena => Bodies.generateOn_evident, ?_⟩
  intro settings compilation compiled corrupt
  obtain ⟨found, verdict⟩ := exists_verdict program
  obtain ⟨again, compiledAgain, reports⟩ := verdict.reported (valid_of_compile compiled)
  rw [compiled] at compiledAgain
  cases compiledAgain
  rw [corrupt] at reports
  rw [← reports] at verdict
  exact verdict.evident

/-- Pops a value, and calls through a dispatch table that would lie behind the end. -/
def strayTable : Program := .bare #[90, 2, 20, 73, 0, 100, 0] (· == 2) []

/-- The stray table is held against the operand that locates it, inside the call at 3. The other
program decodes, and its negative target is found when the jump is written. -/
theorem reported_corruption_evident_strayTable :
    (strayTable.scan.corruption? = some (.truncated 5) ∧
      (Corruption.truncated 5).Evident strayTable.code) ∧
    (jumpsNowhere.scan.corruption? = none ∧
      (Bodies.generateOn .blank {} jumpsNowhere jumpsNowhere.scan.arena).outcome =
        .error (.corrupt (.badOperand 5 (-1))) ∧
      (Corruption.badOperand 5 (-1)).Evident jumpsNowhere.code) ∧
    ∃ compilation, (compile {} jumpsNowhere).outcome = .ok compilation ∧
      compilation.corruption? = some (.badOperand 5 (-1)) ∧
      (Corruption.badOperand 5 (-1)).Evident jumpsNowhere.code := by
  have stray : strayTable.scan.corruption? = some (.truncated 5) := by decide +kernel
  have clean : jumpsNowhere.Clean 2 := ⟨by decide, by decide +kernel⟩
  have unwritten : (Bodies.items {} jumpsNowhere jumpsNowhere.scan.arena).outcome =
      .error (.badOperand 5 (-1)) := by cbv
  have generated : (Bodies.generateOn .blank {} jumpsNowhere jumpsNowhere.scan.arena).outcome =
      .error (.corrupt (.badOperand 5 (-1))) := by
    obtain ⟨behind, same, -⟩ := Bodies.generateOn_eq {} jumpsNowhere jumpsNowhere.scan.arena .blank
    rw [same, unwritten]
    rfl
  have compiled := compile_of_unwritten Settings.default_valid clean unwritten
  refine ⟨⟨stray, ?_⟩, ⟨by decide +kernel, generated, ?_⟩, _, compiled, rfl, ?_⟩
  · exact (reported_corruption_evident strayTable _).1 stray
  · exact (reported_corruption_evident jumpsNowhere _).2.1 _ _ _ generated
  · exact (reported_corruption_evident jumpsNowhere _).2.2 _ _ compiled rfl

end ThreadedCode
