import ThreadedCode.Proofs.TwoRuns
import ThreadedCode.SourceUnit

/-!
# Marks between the instructions

The scan looks for block marks only where it finds the opcode of an instruction. The bodies are then
written for the blocks that were found, and the marks are not looked at again. So programs that are
marked in the same way at their instructions are compiled to the same unit, however their operands,
the entry jump and what lies beyond the stream are marked.
-/

namespace ThreadedCode

/-- The programs differ in what the compiler recorded about offsets at most. -/
structure Program.SameButAttributes (program other : Program) : Prop where
  code : program.code = other.code
  functionAt : ∀ offset, program.functionAt offset = other.functionAt offset
  functionName : ∀ index, program.functionName index = other.functionName index
  string : ∀ index, program.string index = other.string index
  identifier : ∀ index, program.identifier index = other.identifier index
  builtinName : ∀ index, program.builtinName index = other.builtinName index
  raw : program.raw = other.raw

/-- The programs are marked in the same way at their instructions, which are the offsets that
decoding comes to and finds an opcode at. -/
def Program.SameMarks (program other : Program) : Prop :=
  ∀ offset opcode, Reached program.code offset →
    program.code[offset]?.bind Opcode.ofWord? = some opcode →
    program.startsBlock offset = other.startsBlock offset

section TwoPrograms

variable {program other : Program}

theorem Program.SameButAttributes.eq_with (same : program.SameButAttributes other) :
    other = { program with attributes := other.attributes } := by
  obtain ⟨code, attributes, functionAt, functionName, string, identifier, builtinName, raw⟩ := other
  obtain ⟨rfl, starts, names, strings, identifiers, builtins, rfl⟩ := same
  cases funext starts
  cases funext names
  cases funext strings
  cases funext identifiers
  cases funext builtins
  rfl

/-- The scan finds the same blocks. -/
theorem Scan.ofProgram_congr (same : program.SameButAttributes other)
    (marks : program.SameMarks other) : ofProgram program = ofProgram other := by
  have blocks : Arena.divide program.startsBlock (Listing.ofCode program.code).visits =
      Arena.divide other.startsBlock (Listing.ofCode program.code).visits := by
    apply Arena.divide_congr
    intro visit member
    obtain ⟨reached, opcode⟩ := Listing.mem_visits_iff.mp member
    exact marks visit.offset visit.opcode reached opcode
  cases entry : entry? program.code with
  | none => simp only [ofProgram, ← same.code, entry]
  | some start =>
      rw [ofProgram_of_entry entry, ofProgram_of_entry (same.code ▸ entry), ← same.code, blocks]

/-- For the same blocks the bodies are the same. -/
theorem Bodies.generate_congr (same : program.SameButAttributes other) (settings : Settings)
    (arena : Arena) : generate settings program arena = generate settings other arena := by
  rw [same.eq_with]
  have alike : Alike id settings arena program { program with attributes := other.attributes } :=
    ⟨rfl, fun _ => rfl, fun _ => rfl, fun _ _ => rfl⟩
  unfold generate generateOn
  rw [items_congr alike]

end TwoPrograms

/-- Programs that are marked in the same way at their instructions are compiled in the same way,
with the same notices and to the same unit or failure. -/
theorem compile_reads_marks_of_instructions (settings : Settings) {program other : Program}
    (same : program.SameButAttributes other) (marks : program.SameMarks other) :
    compile settings program = compile settings other := by
  unfold compile SourceUnit.ofScan
  simp only [Scan.ofProgram_congr same marks, Bodies.generate_congr same, same.raw]

/-- Pushes the words 76 and 20, which are opcodes too, and jumps back. Blocks start where `splits`
says. -/
def pushesOpcodes (splits : Nat → Bool) : Program := .bare #[90, 2, 0, 76, 0, 20, 90, 2] splits []

/-- Marks on the entry jump, on operands and beyond the stream do not count. -/
theorem compile_reads_marks_of_instructions_pushesOpcodes :
    (pushesOpcodes (· == 2)).SameMarks (pushesOpcodes (· ∈ [0, 1, 2, 3, 5, 7, 8, 100])) ∧
      compile {} (pushesOpcodes (· == 2)) =
        compile {} (pushesOpcodes (· ∈ [0, 1, 2, 3, 5, 7, 8, 100])) := by
  have marks :
      (pushesOpcodes (· == 2)).SameMarks (pushesOpcodes (· ∈ [0, 1, 2, 3, 5, 7, 8, 100])) := by
    intro offset opcode reached found
    have visited : ⟨offset, opcode⟩ ∈ (Listing.ofCode (pushesOpcodes (· == 2)).code).visits :=
      Listing.mem_visits_iff.mpr ⟨reached, found⟩
    have visits : (Listing.ofCode (pushesOpcodes (· == 2)).code).visits =
        [⟨2, .pushInt⟩, ⟨4, .pushInt⟩, ⟨6, .jump⟩] := by cbv
    simp only [visits, List.mem_cons, List.not_mem_nil, or_false, Visit.mk.injEq] at visited
    rcases visited with ⟨rfl, -⟩ | ⟨rfl, -⟩ | ⟨rfl, -⟩ <;> decide
  exact ⟨marks, compile_reads_marks_of_instructions {} ⟨rfl, fun _ => rfl, fun _ => rfl,
    fun _ => rfl, fun _ => rfl, fun _ => rfl, rfl⟩ marks⟩

end ThreadedCode
