import Mathlib.Algebra.GroupWithZero.Nat
import ThreadedCode.Proofs.BlockScan

/-!
# The partition into blocks

The blocks that a scan records divide the offsets it visits. A block begins at every marked offset,
and counts what is visited from there up to the next block. Only what comes before the first block
is counted nowhere. An instruction whose operands do not resolve is visited, and so it is counted,
even though the scan stops there.
-/

namespace ThreadedCode

section Offsets

variable {marks : Nat → Bool} {offsets : List Nat}

/-- In ascending order the unmarked offsets at the front are those that lie before every mark. -/
theorem length_takeWhile_unmarked (ascending : offsets.Pairwise (· < ·)) :
    (offsets.takeWhile fun offset => !marks offset).length =
      offsets.countP fun offset => ∀ next ∈ offsets.filter marks, offset < next := by
  induction offsets with
  | nil => rfl
  | cons offset rest ih =>
      obtain ⟨above, ascending⟩ := List.pairwise_cons.mp ascending
      cases marked : marks offset with
      | true =>
          have none : (offset :: rest).countP (fun other =>
              ∀ next ∈ (offset :: rest).filter marks, other < next) = 0 := by
            rw [List.countP_eq_zero]
            intro other member
            have low : ¬other < offset := by
              rcases List.mem_cons.mp member with rfl | later
              · exact Nat.lt_irrefl other
              · exact Nat.lt_asymm (above other later)
            simp [marked, low]
          rw [none]
          simp [marked]
      | false =>
          have first : ∀ next ∈ rest.filter marks, offset < next := fun next member =>
            above next (List.mem_filter.mp member).1
          rw [List.takeWhile_cons_of_pos (by simp [marked]), List.length_cons, ih ascending,
            List.filter_cons_of_neg (by simp [marked]),
            List.countP_cons_of_pos (by simpa using first)]

end Offsets

namespace Arena

variable {marks : Nat → Bool} {visits : List Visit}

/-- A block begins at a marked visit and counts the visits up to the next mark. -/
theorem mem_divide {block : Block} (member : block ∈ divide marks visits) :
    ∃ before visit after, visits = before ++ visit :: after ∧ marks visit.offset = true ∧
      block = ⟨visit.offset, visit.opcode,
        (after.takeWhile fun later => !marks later.offset).length + 1⟩ := by
  induction visits with
  | nil => cases member
  | cons first rest ih =>
      have earlier : block ∈ divide marks rest →
          ∃ before visit after, first :: rest = before ++ visit :: after ∧
            marks visit.offset = true ∧ block = ⟨visit.offset, visit.opcode,
              (after.takeWhile fun later => !marks later.offset).length + 1⟩ := by
        intro found
        obtain ⟨before, visit, after, rfl, starts, same⟩ := ih found
        exact ⟨first :: before, visit, after, rfl, starts, same⟩
      cases starts : marks first.offset with
      | true =>
          rw [divide, if_pos starts] at member
          rcases List.mem_cons.mp member with rfl | found
          · exact ⟨[], first, rest, rfl, starts, rfl⟩
          · exact earlier found
      | false =>
          rw [divide, if_neg (by simp [starts])] at member
          exact earlier member

theorem length_takeWhile_visits (ascending : (visits.map Visit.offset).Pairwise (· < ·)) :
    (visits.takeWhile fun later => !marks later.offset).length =
      (visits.map Visit.offset).countP fun offset =>
        ∀ next ∈ (visits.map Visit.offset).filter marks, offset < next := by
  rw [← length_takeWhile_unmarked ascending, List.takeWhile_map, List.length_map]
  rfl

/-- A block counts the visited offsets from its own up to the next block. -/
theorem instructions_eq (ascending : (visits.map Visit.offset).Pairwise (· < ·)) {block : Block}
    (member : block ∈ divide marks visits) :
    block.instructions = (visits.map Visit.offset).countP fun offset =>
      block.offset ≤ offset ∧
        ∀ next ∈ (visits.map Visit.offset).filter marks, block.offset < next → offset < next := by
  obtain ⟨before, visit, after, rfl, starts, rfl⟩ := mem_divide member
  rw [List.map_append, List.map_cons] at ascending ⊢
  obtain ⟨-, behind, below⟩ := List.pairwise_append.mp ascending
  obtain ⟨above, behind⟩ := List.pairwise_cons.mp behind
  have lower : ∀ offset ∈ before.map Visit.offset, offset < visit.offset := fun offset found =>
    below offset found visit.offset List.mem_cons_self
  -- the marks behind the block are those of the visits behind it
  have marks_iff : ∀ offset, (∀ next ∈ (before.map Visit.offset
        ++ visit.offset :: after.map Visit.offset).filter marks,
          visit.offset < next → offset < next) ↔
      ∀ next ∈ (after.map Visit.offset).filter marks, offset < next := by
    intro offset
    simp only [List.mem_filter, List.mem_append, List.mem_cons]
    constructor
    · rintro all next ⟨found, marked⟩
      exact all next ⟨Or.inr (Or.inr found), marked⟩ (above next found)
    · rintro all next ⟨found | rfl | found, marked⟩ later
      · exact absurd later (Nat.lt_asymm (lower next found))
      · exact absurd later (Nat.lt_irrefl _)
      · exact all next ⟨found, marked⟩
  have none : (before.map Visit.offset).countP (fun offset => visit.offset ≤ offset ∧
      ∀ next ∈ (after.map Visit.offset).filter marks, offset < next) = 0 := by
    rw [List.countP_eq_zero]
    intro offset found
    simp [Nat.not_le.mpr (lower offset found)]
  have first : ∀ next ∈ (after.map Visit.offset).filter marks, visit.offset < next :=
    fun next found => above next (List.mem_filter.mp found).1
  have rest : (after.map Visit.offset).countP (fun offset => visit.offset ≤ offset ∧
      ∀ next ∈ (after.map Visit.offset).filter marks, offset < next) =
      (after.map Visit.offset).countP fun offset =>
        ∀ next ∈ (after.map Visit.offset).filter marks, offset < next := by
    refine List.countP_congr fun offset found => ?_
    simp [Nat.le_of_lt (above offset found)]
  simp only [marks_iff]
  rw [List.countP_append, none, List.countP_cons_of_pos (by simpa using first), rest,
    ← length_takeWhile_visits behind, Nat.zero_add]

/-- The blocks together count the visited offsets that do not lie before all blocks. -/
theorem sum_instructions (ascending : (visits.map Visit.offset).Pairwise (· < ·)) :
    ((divide marks visits).map Block.instructions).sum =
      (visits.map Visit.offset).countP fun offset =>
        ∃ block ∈ (visits.map Visit.offset).filter marks, block ≤ offset := by
  induction visits with
  | nil => rfl
  | cons visit rest ih =>
      obtain ⟨above, ascending⟩ := List.pairwise_cons.mp ascending
      cases starts : marks visit.offset with
      | true =>
          have all : ((visit :: rest).map Visit.offset).countP (fun offset =>
              ∃ block ∈ ((visit :: rest).map Visit.offset).filter marks, block ≤ offset) =
              rest.length + 1 := by
            rw [List.countP_eq_length.mpr, List.length_map, List.length_cons]
            intro offset found
            have low : visit.offset ≤ offset := by
              rcases List.mem_cons.mp found with rfl | later
              · exact Nat.le_refl _
              · exact Nat.le_of_lt (above offset later)
            simp [starts, low]
          -- every later offset lies before all later blocks or behind one of them
          have split := List.length_eq_countP_add_countP
            (fun offset => ∃ block ∈ (rest.map Visit.offset).filter marks, block ≤ offset)
            (l := rest.map Visit.offset)
          rw [all, divide, if_pos starts, List.map_cons, List.sum_cons, ih ascending,
            length_takeWhile_visits ascending]
          simp only [List.length_map, not_exists, not_and, Nat.not_le, decide_eq_true_eq] at split ⊢
          omega
      | false =>
          have first : ¬∃ block ∈ (rest.map Visit.offset).filter marks, block ≤ visit.offset := by
            rintro ⟨block, found, low⟩
            exact absurd (above block (List.mem_filter.mp found).1) (Nat.not_lt.mpr low)
          rw [divide, if_neg (by simp [starts]), ih ascending, List.map_cons,
            List.filter_cons_of_neg (by simp [starts]),
            List.countP_cons_of_neg (by simpa using first)]

end Arena

/-- If nothing is wrong, the instructions fill the stream up to its end. -/
theorem Decodes.ends_at_size {code : Array Word} {cursor : Nat} {instructions : List Instruction}
    {ending : Ending} (run : Decodes code cursor instructions ending)
    (complete : ending = .complete) (inside : cursor ≤ code.size) :
    instructions = [] ∧ cursor = code.size ∨
      ∃ last, instructions.getLast? = some last ∧ last.StandsIn code ∧ last.next = code.size := by
  induction run with
  | complete past => exact Or.inl ⟨rfl, Nat.le_antisymm inside past⟩
  | badOpcode _ _ | unresolved _ _ _ => cases complete
  | @instruction instruction rest ending stands tail ih =>
      right
      rcases ih complete stands.next_le_size with
        ⟨rfl, reached⟩ | ⟨last, found, lastStands, reached⟩
      · exact ⟨instruction, rfl, stands, reached⟩
      · refine ⟨last, ?_, lastStands, reached⟩
        rw [List.getLast?_cons, found]
        rfl

theorem first_le_of_begins {code : Array Word} (begins : BeginsWithJump code) :
    Instruction.first ≤ code.size := by
  obtain ⟨jump, target, -, found, -, -⟩ := begins
  exact (Array.getElem?_eq_some_iff.mp found).1

/-- The scan divides what it visits into blocks. The visited offsets are those that decoding comes
to and finds an opcode at. The blocks are the marked ones among them. Each has the opcode of its
offset, and counts the visits from there up to the next block, of which there is at least one.
Together they count the visits from the first block on. If nothing is wrong, the last visited
instruction ends where the stream does. -/
theorem scan_partitions_visits {program : Program} (begins : BeginsWithJump program.code) :
    ∃ visited : List Nat,
      visited.Pairwise (· < ·) ∧
      (∀ offset, offset ∈ visited ↔
        Reached program.code offset ∧
          ∃ opcode, program.code[offset]?.bind Opcode.ofWord? = some opcode) ∧
      program.scan.arena.offsets = visited.filter program.startsBlock ∧
      (∀ block ∈ program.scan.arena.blocks,
        program.code[block.offset]?.bind Opcode.ofWord? = some block.first ∧
        block.instructions = (visited.countP fun offset => block.offset ≤ offset ∧
          ∀ next ∈ program.scan.arena.offsets, block.offset < next → offset < next) ∧
        1 ≤ block.instructions) ∧
      (program.scan.arena.blocks.map Block.instructions).sum =
        (visited.countP fun offset => ∃ block ∈ program.scan.arena.offsets, block ≤ offset) ∧
      (program.scan.corruption? = none →
        visited = [] ∧ program.code.size = Instruction.first ∨
          ∃ instruction : Instruction, visited.getLast? = some instruction.offset ∧
            instruction.StandsIn program.code ∧ instruction.next = program.code.size) := by
  obtain ⟨start, entry⟩ := beginsWithJump_iff.mp begins
  have run := Listing.decodes_ofCode program.code
  have ascending := run.visits_ascending.1
  have offsets : program.scan.arena.offsets =
      ((Listing.ofCode program.code).visits.map Visit.offset).filter program.startsBlock := by
    rw [Program.scan_of_entry entry, Arena.offsets, Arena.divide_offsets]
  refine ⟨_, ascending, ?_, offsets, ?_, ?_, ?_⟩
  · intro offset
    constructor
    · intro member
      obtain ⟨visit, found, rfl⟩ := List.mem_map.mp member
      obtain ⟨reached, opcode⟩ := Listing.mem_visits_iff.mp found
      exact ⟨reached, visit.opcode, opcode⟩
    · rintro ⟨reached, opcode, found⟩
      have visited : ⟨offset, opcode⟩ ∈ (Listing.ofCode program.code).visits :=
        Listing.mem_visits_iff.mpr ⟨reached, found⟩
      exact List.mem_map_of_mem visited
  · intro block member
    rw [offsets]
    rw [Program.scan_of_entry entry] at member
    refine ⟨?_, Arena.instructions_eq ascending member, ?_⟩
    · obtain ⟨before, visit, after, split, -, rfl⟩ := Arena.mem_divide member
      have found : visit ∈ (Listing.ofCode program.code).visits := by simp [split]
      exact (Listing.mem_visits_iff.mp found).2
    · obtain ⟨before, visit, after, -, -, rfl⟩ := Arena.mem_divide member
      exact Nat.le_add_left 1 _
  · rw [offsets, Program.scan_of_entry entry]
    exact Arena.sum_instructions ascending
  · intro sound
    rw [Program.scan_of_entry entry] at sound
    have clean : program.Clean start := ⟨entry, Ending.eq_complete sound⟩
    rw [clean.visits_eq]
    rcases clean.run.ends_at_size rfl (first_le_of_begins begins) with
      ⟨none, reached⟩ | ⟨last, found, stands, reached⟩
    · exact Or.inl ⟨by rw [none]; rfl, reached.symm⟩
    · refine Or.inr ⟨last, ?_, stands, reached⟩
      rw [List.getLast?_map, found]
      rfl

/-- Pops before its first block starts, and ends within the operands of its last instruction. -/
def breaksOff : Program :=
  .bare #[90, 2, 20, 0, 7, 20, 22, 0] (fun offset => offset == 3 || offset == 6) []

/-- The instruction that breaks off counts for its block, the one before all blocks for none. -/
theorem scan_partitions_visits_breaksOff :
    BeginsWithJump breaksOff.code ∧
      breaksOff.scan.arena.blocks = [⟨3, .pushInt, 2⟩, ⟨6, .dup, 2⟩] ∧
      breaksOff.scan.corruption? = some (.truncated 8) ∧
      ∃ visited : List Nat,
        (∀ offset, offset ∈ visited ↔ Reached breaksOff.code offset ∧
          ∃ opcode, breaksOff.code[offset]?.bind Opcode.ofWord? = some opcode) ∧
        (visited.countP fun offset => ∃ block ∈ [3, 6], block ≤ offset) = 4 := by
  have begins : BeginsWithJump breaksOff.code := ⟨90, 2, rfl, rfl, rfl, by decide⟩
  have scan : breaksOff.scan =
      ⟨some 2, ⟨[⟨3, .pushInt, 2⟩, ⟨6, .dup, 2⟩]⟩, some (.truncated 8)⟩ := by decide +kernel
  obtain ⟨visited, -, members, -, -, sum, -⟩ := scan_partitions_visits begins
  rw [scan] at sum
  rw [scan]
  exact ⟨begins, rfl, rfl, visited, members, sum.symm⟩

end ThreadedCode
