import ThreadedCode.Block.Scan
import ThreadedCode.Proofs.Decoding

/-!
# The blocks of a program

The scan records a block at every marked offset that it visits, in ascending order. After a clean
scan the visits are the offsets of the instructions, so that a mark and a recorded block are the
same thing wherever an instruction stands.
-/

namespace ThreadedCode

theorem takeWhile_congr {α : Type} {p q : α → Bool} {items : List α}
    (same : ∀ item ∈ items, p item = q item) : items.takeWhile p = items.takeWhile q := by
  induction items with
  | nil => rfl
  | cons item rest ih =>
      rw [List.takeWhile_cons, List.takeWhile_cons, same item List.mem_cons_self,
        ih fun later member => same later (List.mem_cons_of_mem item member)]

namespace Arena

/-- The blocks into which the marked starts divide a sequence of visits. A block goes on up to the
next start, and visits before the first start belong to none. -/
def divide (startsBlock : Nat → Bool) : List Visit → List Block
  | [] => []
  | visit :: rest =>
    if startsBlock visit.offset then
      let inside := rest.takeWhile fun later => !startsBlock later.offset
      ⟨visit.offset, visit.opcode, inside.length + 1⟩ :: divide startsBlock rest
    else divide startsBlock rest

theorem divide_offsets (startsBlock : Nat → Bool) (visits : List Visit) :
    (divide startsBlock visits).map Block.offset =
      (visits.map Visit.offset).filter startsBlock := by
  induction visits with
  | nil => rfl
  | cons visit rest ih =>
      by_cases starts : startsBlock visit.offset
      · simp [divide, starts, ih]
      · simp [divide, starts, ih]

/-- Marks count only where something is visited. -/
theorem divide_congr {marks others : Nat → Bool} {visits : List Visit}
    (agree : ∀ visit ∈ visits, marks visit.offset = others visit.offset) :
    divide marks visits = divide others visits := by
  induction visits with
  | nil => rfl
  | cons visit rest ih =>
      have first := agree visit List.mem_cons_self
      have later : ∀ visit ∈ rest, marks visit.offset = others visit.offset :=
        fun visit member => agree visit (List.mem_cons_of_mem _ member)
      have inside : (rest.takeWhile fun visit => !marks visit.offset) =
          rest.takeWhile fun visit => !others visit.offset :=
        takeWhile_congr fun visit member => congrArg not (later visit member)
      simp only [divide, first, inside, ih later]

theorem contains_iff (arena : Arena) (offset : Nat) :
    arena.contains offset = true ↔ offset ∈ arena.offsets := by
  simp [contains, find?, offsets, List.find?_isSome]

@[simp] theorem length_offsets (arena : Arena) : arena.offsets.length = arena.size := by
  simp [offsets, size]

end Arena

namespace Scan.Progress

variable {marks : Nat → Bool} {visit : Visit}

/-- A marked offset behind all blocks opens a block, and its opcode is the first that counts. -/
theorem visit_start (marked : marks visit.offset = true) {found : List Block}
    (behind : ∀ last ∈ found.head?, last.offset < visit.offset) (current? : Option Nat) :
    Progress.visit marks ⟨found, current?⟩ visit =
      ⟨⟨visit.offset, visit.opcode, 1⟩ :: found, some visit.offset⟩ := by
  cases found with
  | nil => simp [Progress.visit, enter, marked, insert, count]
  | cons last earlier =>
      have before : last.offset < visit.offset := behind last rfl
      simp [Progress.visit, enter, marked, insert, count, before]

/-- Any other opcode counts for the block found last. -/
theorem visit_plain (plain : marks visit.offset = false) (last : Block) (earlier : List Block) :
    Progress.visit marks ⟨last :: earlier, some last.offset⟩ visit =
      ⟨{ last with instructions := last.instructions + 1 } :: earlier, some last.offset⟩ := by
  simp [Progress.visit, enter, plain, count]

theorem visit_before (plain : marks visit.offset = false) :
    Progress.visit marks {} visit = {} := by
  simp [Progress.visit, enter, plain]

/-- Visits behind a block count for it up to the next mark. From there on they are divided into
blocks of their own, since none of them comes back to an earlier offset. -/
theorem found_behind {visits : List Visit} (ascending : (visits.map Visit.offset).Pairwise (· < ·))
    {last : Block} (behind : ∀ later ∈ visits, last.offset < later.offset) (earlier : List Block) :
    (visits.foldl (Progress.visit marks) ⟨last :: earlier, some last.offset⟩).found.reverse =
      earlier.reverse
        ++ ⟨last.offset, last.first, last.instructions
            + (visits.takeWhile fun later => !marks later.offset).length⟩
          :: Arena.divide marks visits := by
  induction visits generalizing last earlier with
  | nil => simp [Arena.divide]
  | cons visit rest ih =>
      obtain ⟨above, ascending⟩ := List.pairwise_cons.mp ascending
      have before := behind visit List.mem_cons_self
      cases starts : marks visit.offset with
      | true =>
          rw [List.foldl_cons, visit_start starts (by simpa using before), ih ascending]
          · simp [Arena.divide, starts, Nat.add_comm]
          · intro later member
            exact above later.offset (List.mem_map_of_mem member)
      | false =>
          rw [List.foldl_cons, visit_plain starts, ih ascending]
          · simp [Arena.divide, starts, Nat.add_assoc, Nat.add_comm 1]
          · intro later member
            exact behind later (List.mem_cons_of_mem visit member)

/-- Recording visit by visit finds the blocks into which the marks divide the visits. -/
theorem found_eq_divide {visits : List Visit}
    (ascending : (visits.map Visit.offset).Pairwise (· < ·)) :
    (visits.foldl (Progress.visit marks) {}).found.reverse = Arena.divide marks visits := by
  induction visits with
  | nil => rfl
  | cons visit rest ih =>
      obtain ⟨above, ascending⟩ := List.pairwise_cons.mp ascending
      cases starts : marks visit.offset with
      | true =>
          rw [List.foldl_cons, visit_start starts (by simp), found_behind ascending]
          · simp [Arena.divide, starts, Nat.add_comm]
          · intro later member
            exact above later.offset (List.mem_map_of_mem member)
      | false =>
          rw [List.foldl_cons, visit_before starts, ih ascending]
          simp [Arena.divide, starts]

end Scan.Progress

namespace Decodes

variable {code : Array Word} {cursor : Nat} {instructions : List Instruction} {ending : Ending}

theorem visits_complete (instructions : List Instruction) :
    (Listing.visits ⟨instructions, .complete⟩).map Visit.offset =
      instructions.map Instruction.offset := by
  simp [Listing.visits, Function.comp_def]

theorem visits_cons (instruction : Instruction) (rest : List Instruction) (ending : Ending) :
    Listing.visits ⟨instruction :: rest, ending⟩ =
      ⟨instruction.offset, instruction.opcode⟩ :: Listing.visits ⟨rest, ending⟩ := by
  cases ending <;> rfl

theorem visits_append (front back : List Instruction) (ending : Ending) :
    Listing.visits ⟨front ++ back, ending⟩ =
      front.map (fun instruction => ⟨instruction.offset, instruction.opcode⟩)
        ++ Listing.visits ⟨back, ending⟩ := by
  cases ending <;> simp [Listing.visits]

/-- Decoding visits every offset once and in order, and the one it fails at last. -/
theorem visits_ascending (run : Decodes code cursor instructions ending) :
    ((Listing.visits ⟨instructions, ending⟩).map Visit.offset).Pairwise (· < ·) ∧
      ∀ offset ∈ (Listing.visits ⟨instructions, ending⟩).map Visit.offset, cursor ≤ offset := by
  induction run with
  | complete _ | badOpcode _ _ | unresolved _ _ _ => simp [Listing.visits]
  | @instruction instruction rest ending stands tail ih =>
      obtain ⟨ascending, later⟩ := ih
      have visits : (Listing.visits ⟨instruction :: rest, ending⟩).map Visit.offset =
          instruction.offset :: (Listing.visits ⟨rest, ending⟩).map Visit.offset :=
        congrArg (List.map Visit.offset) (visits_cons instruction rest ending)
      have below : ∀ offset ∈ (Listing.visits ⟨rest, ending⟩).map Visit.offset,
          instruction.offset < offset := fun offset member =>
        Nat.lt_of_lt_of_le stands.offset_lt_next (later offset member)
      rw [visits, List.pairwise_cons]
      constructor
      · exact ⟨below, ascending⟩
      · intro offset member
        rcases List.mem_cons.mp member with rfl | member
        · exact Nat.le_refl _
        · exact Nat.le_of_lt (below offset member)

/-- Decoding comes to every offset that it visits, and finds the opcode there. -/
theorem reached_of_mem_visits (run : Decodes code cursor instructions ending)
    (start : Reached code cursor) {visit : Visit}
    (member : visit ∈ Listing.visits ⟨instructions, ending⟩) :
    Reached code visit.offset ∧ code[visit.offset]?.bind Opcode.ofWord? = some visit.opcode := by
  induction run with
  | complete _ | badOpcode _ _ => cases member
  | unresolved found known _ =>
      cases List.mem_singleton.mp member
      rw [found]
      exact ⟨start, known⟩
  | @instruction instruction rest ending stands tail ih =>
      rw [visits_cons] at member
      rcases List.mem_cons.mp member with rfl | later
      · exact ⟨start, stands.opcode⟩
      · exact ih (start.next stands) later

/-- Decoding begins by visiting the opcode at its cursor, if there is one. -/
theorem mem_visits (run : Decodes code cursor instructions ending) {opcode : Opcode}
    (found : code[cursor]?.bind Opcode.ofWord? = some opcode) :
    ⟨cursor, opcode⟩ ∈ Listing.visits ⟨instructions, ending⟩ := by
  cases run with
  | complete past => simp [Array.getElem?_eq_none past] at found
  | badOpcode known unknown => simp [known, unknown] at found
  | unresolved word known _ =>
      rw [word] at found
      cases known.symm.trans found
      exact List.mem_singleton_self _
  | @instruction instruction rest _ stands tail =>
      cases stands.opcode.symm.trans found
      rw [visits_cons]
      exact List.mem_cons_self

end Decodes

/-- The visits are the offsets that decoding comes to and finds an opcode at. -/
theorem Listing.mem_visits_iff {code : Array Word} {visit : Visit} :
    visit ∈ (ofCode code).visits ↔
      Reached code visit.offset ∧ code[visit.offset]?.bind Opcode.ofWord? = some visit.opcode := by
  have run := decodes_ofCode code
  constructor
  · exact run.reached_of_mem_visits .first
  · rintro ⟨reached, found⟩
    obtain ⟨before, after, split, tail⟩ := reached.divides run
    have visits := Decodes.visits_append before after (ofCode code).ending
    rw [← split] at visits
    rw [visits]
    exact List.mem_append_right _ (tail.mem_visits found)

/-- The entry jump is the opcode of a jump and a target that is no negative word. -/
theorem Scan.entry?_eq_some_iff {code : Array Word} {start : Nat} :
    entry? code = some start ↔
      code[0]?.bind Opcode.ofWord? = some .jump ∧ code[1]?.bind Word.index? = some start := by
  unfold entry?
  cases first : code[0]? with
  | none => simp
  | some jump =>
      cases second : code[1]? with
      | none => simp
      | some target =>
          by_cases opcode : Opcode.ofWord? jump = some .jump <;> simp [opcode]

/-- The stream begins with a jump and a word that is not negative. -/
def BeginsWithJump (code : Array Word) : Prop :=
  ∃ jump target, code[0]? = some jump ∧ code[1]? = some target ∧
    Opcode.ofWord? jump = some .jump ∧ 0 ≤ target.toInt

theorem beginsWithJump_iff {code : Array Word} :
    BeginsWithJump code ↔ ∃ start, Scan.entry? code = some start := by
  constructor
  · rintro ⟨jump, target, first, second, opcode, located⟩
    refine ⟨target.toInt.toNat, Scan.entry?_eq_some_iff.mpr ⟨?_, ?_⟩⟩
    · rw [first, Option.bind_some, opcode]
    · rw [second, Option.bind_some, Word.index?_eq_some_iff]
      exact (Int.toNat_of_nonneg located).symm
  · rintro ⟨start, found⟩
    obtain ⟨first, second⟩ := Scan.entry?_eq_some_iff.mp found
    obtain ⟨jump, atFirst, opcode⟩ := Option.bind_eq_some_iff.mp first
    obtain ⟨target, atSecond, index⟩ := Option.bind_eq_some_iff.mp second
    refine ⟨jump, target, atFirst, atSecond, opcode, ?_⟩
    rw [Word.index?_eq_some_iff.mp index]
    exact Int.natCast_nonneg start

/-- The scan finds the blocks into which the marks divide its visits. -/
theorem Scan.ofProgram_of_entry {program : Program} {start : Nat}
    (entry : entry? program.code = some start) :
    let listing := Listing.ofCode program.code
    let arena : Arena := ⟨Arena.divide program.startsBlock listing.visits⟩
    ofProgram program =
      (⟨some start, arena, listing.ending.corruption?⟩,
        arena.blocks.map (fun block => Notice.blockStarts block.offset block.first)
          ++ closing start arena listing.ending) := by
  have ascending := (Listing.decodes_ofCode program.code).visits_ascending.1
  have found : ((Listing.ofCode program.code).visits.foldl
      (Progress.visit program.startsBlock) {}).found.reverse = _ :=
    Progress.found_eq_divide ascending
  simp only [ofProgram, entry, found]

namespace Program

/-- What the scan of the program finds. -/
def scan (program : Program) : Scan := (Scan.ofProgram program).1

/-- The decoded instructions of the program. -/
def instructions (program : Program) : List Instruction :=
  (Listing.ofCode program.code).instructions

/-- The scan of the program is clean: there is an entry jump to the given block, and decoding comes
to the end of the stream. -/
structure Clean (program : Program) (start : Nat) : Prop where
  entry : Scan.entry? program.code = some start
  complete : (Listing.ofCode program.code).ending = .complete

variable {program : Program} {start : Nat}

theorem scan_of_entry (entry : Scan.entry? program.code = some start) :
    program.scan =
      ⟨some start, ⟨Arena.divide program.startsBlock (Listing.ofCode program.code).visits⟩,
        (Listing.ofCode program.code).ending.corruption?⟩ := by
  rw [scan, Scan.ofProgram_of_entry entry]

theorem scan_of_no_entry (missing : Scan.entry? program.code = none) :
    program.scan = ⟨none, .empty, some .missingEntryJump⟩ := by
  simp only [scan, Scan.ofProgram, missing]

/-- The recorded blocks are in ascending order, whether or not the scan was clean. -/
theorem offsets_ascending (program : Program) : program.scan.arena.offsets.Pairwise (· < ·) := by
  cases entry : Scan.entry? program.code with
  | none =>
      rw [scan_of_no_entry entry]
      exact List.Pairwise.nil
  | some start =>
      rw [scan_of_entry entry, Arena.offsets, Arena.divide_offsets]
      exact (Listing.decodes_ofCode program.code).visits_ascending.1.filter _

namespace Clean

theorem run (clean : program.Clean start) :
    Decodes program.code Instruction.first program.instructions .complete := by
  have run := Listing.decodes_ofCode program.code
  rwa [clean.complete] at run

/-- The scan visits the instructions. -/
theorem visits_eq (clean : program.Clean start) :
    (Listing.ofCode program.code).visits.map Visit.offset =
      program.instructions.map Instruction.offset := by
  have listing : Listing.ofCode program.code = ⟨program.instructions, .complete⟩ := by
    rw [← clean.complete]
    rfl
  rw [listing, Decodes.visits_complete]

/-- The blocks are the marked ones among the instructions. -/
theorem offsets_eq (clean : program.Clean start) :
    program.scan.arena.offsets =
      (program.instructions.map Instruction.offset).filter program.startsBlock := by
  rw [scan_of_entry clean.entry, Arena.offsets, Arena.divide_offsets, clean.visits_eq]

/-- Where an instruction stands, a mark and a recorded block are the same. -/
theorem contains_eq (clean : program.Clean start) {offset : Nat}
    (member : offset ∈ program.instructions.map Instruction.offset) :
    program.scan.arena.contains offset = program.startsBlock offset := by
  rw [Bool.eq_iff_iff, Arena.contains_iff, clean.offsets_eq, List.mem_filter]
  exact ⟨And.right, fun marked => ⟨member, marked⟩⟩

theorem filter_contains (clean : program.Clean start) :
    (program.instructions.map Instruction.offset).filter program.scan.arena.contains =
      program.scan.arena.offsets := by
  rw [clean.offsets_eq]
  exact List.filter_congr fun offset member => clean.contains_eq member

end Clean

end Program

end ThreadedCode
