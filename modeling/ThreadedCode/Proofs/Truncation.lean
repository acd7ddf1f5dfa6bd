import ThreadedCode.Proofs.BlockScan

/-!
# Truncated programs

What the scan makes of the first words of a program whose scan is clean. It comes to the same
instructions as before, up to the cut or to the first instruction that reads a word behind it. There
it stops, because the stream is too short and for no other reason. So it finds the same blocks, as
far as it gets, and only the last of them can miss instructions.
-/

namespace ThreadedCode

section Words

variable {code : Array Word} {length index : Nat}

theorem getElem?_take :
    (code.take length)[index]? = if index < length then code[index]? else none := by
  have taken : (code.take length).toList = code.toList.take length := by simp
  rw [← Array.getElem?_toList, taken, List.getElem?_take, Array.getElem?_toList]

/-- The words of the cut stream are words of the whole one. -/
theorem getElem?_of_take {word : Word} (found : (code.take length)[index]? = some word) :
    code[index]? = some word := by
  rw [getElem?_take] at found
  split at found
  · exact found
  · cases found

end Words

/-- The second computation gives what the first one gives, unless its stream ends too early. -/
def Truncates {α : Type} (whole cut : Except Corruption α) : Prop :=
  ∀ value, whole = .ok value → cut = .ok value ∨ ∃ offset, cut = .error (.truncated offset)

namespace Truncates

variable {α β : Type} {whole cut : Except Corruption α}

theorem refl (result : Except Corruption α) : Truncates result result := fun _ => Or.inl

theorem bind (first : Truncates whole cut) {next next' : α → Except Corruption β}
    (later : ∀ value, Truncates (next value) (next' value)) :
    Truncates (whole >>= next) (cut >>= next') := by
  intro result found
  obtain ⟨value, start, rest⟩ := except_bind_eq_ok.mp found
  rcases first value start with same | ⟨offset, short⟩
  · rw [same]
    exact later value result rest
  · rw [short]
    exact Or.inr ⟨offset, rfl⟩

end Truncates

namespace Operands

variable (code : Array Word) (length : Nat)

/-- Passing over words has no other way to fail. -/
theorem truncates_skip (cursor words : Nat) :
    Truncates (skip code cursor words) (skip (code.take length) cursor words) := by
  intro next found
  obtain ⟨small, rfl, -⟩ := skip_eq_ok_iff.mp found
  rw [skip, Offset.add?_eq_some_iff.mpr ⟨small, rfl⟩]
  dsimp only
  split
  · exact Or.inl rfl
  · exact Or.inr ⟨cursor, rfl⟩

theorem truncates_readCount (cursor : Nat) :
    Truncates (readCount code cursor) (readCount (code.take length) cursor) := by
  intro count found
  cases word : (code.take length)[cursor]? with
  | none => exact Or.inr ⟨cursor, by rw [readCount, word]; rfl⟩
  | some read =>
      left
      rw [readCount, word, ← getElem?_of_take word]
      exact found

theorem truncates_tableArguments (slot table : Nat) :
    Truncates (tableArguments code slot table) (tableArguments (code.take length) slot table) := by
  intro arguments found
  cases sum : Offset.add? table 2 with
  | none =>
      rw [tableArguments, sum] at found
      cases found
  | some position =>
      rw [tableArguments, sum] at found ⊢
      rw [Option.bind_some] at found ⊢
      cases word : (code.take length)[position]? with
      | none => exact Or.inr ⟨slot, rfl⟩
      | some read =>
          rw [getElem?_of_take word] at found
          exact Or.inl found

theorem truncates_extent (cursor : Nat) (shape : OperandShape) :
    Truncates (extent code cursor shape) (extent (code.take length) cursor shape) := by
  have skips := truncates_skip code length
  have counts := truncates_readCount code length
  have tables := truncates_tableArguments code length
  cases shape with
  | fixed words => exact (skips _ _).bind fun _ => .refl _
  | coroutine =>
      exact (skips _ _).bind fun _ => (counts _).bind fun _ => (skips _ _).bind fun _ => .refl _
  | callMulti =>
      exact (skips _ _).bind fun _ => (counts _).bind fun _ => (tables _ _).bind fun _ =>
        (skips _ _).bind fun _ => (skips _ _).bind fun _ => .refl _
  | funStart =>
      exact (counts _).bind fun _ => (skips _ _).bind fun _ => (counts _).bind fun _ =>
        (skips _ _).bind fun _ => (skips _ _).bind fun _ => .refl _
  | funMulti =>
      refine (counts _).bind fun cases => (counts _).bind fun arguments => ?_
      split
      · exact .refl _
      · exact (skips _ _).bind fun _ => .refl _

end Operands

/-- An instruction that resolves in the whole stream resolves in the cut one to the same span, or
its operands break off there. -/
theorem Opcode.truncates_resolve (opcode : Opcode) (code : Array Word) (length cursor : Nat) :
    Truncates (opcode.resolve code cursor) (opcode.resolve (code.take length) cursor) :=
  (Operands.truncates_extent code length cursor opcode.shape).bind fun _ => .refl _

/-- How decoding ends in a stream that was cut: at the cut, if that is where an instruction ends, or
within the first of the instructions that are left. -/
inductive EndsEarly (code : Array Word) (length : Nat) : List Instruction → Ending → Prop
  | between {left : List Instruction} (reached : Reached code length) :
      EndsEarly code length left .complete
  | within (instruction : Instruction) (rest : List Instruction) (offset : Nat) :
      EndsEarly code length (instruction :: rest)
        (.unresolved instruction.offset instruction.opcode (.truncated offset))

namespace Decodes

variable {code : Array Word} {cursor : Nat} {instructions : List Instruction}

/-- Inside a stream that decodes to its end an instruction stands wherever decoding comes to. -/
theorem exists_instruction (run : Decodes code cursor instructions .complete)
    (inside : cursor < code.size) :
    ∃ instruction rest, instruction.offset = cursor ∧ instruction.StandsIn code ∧
      instructions = instruction :: rest ∧ Decodes code instruction.next rest .complete := by
  cases run with
  | complete past => exact absurd inside (Nat.not_lt.mpr past)
  | @instruction instruction rest _ stands tail => exact ⟨instruction, rest, rfl, stands, rfl, tail⟩

/-- Decoding the cut stream goes along with decoding the whole one until it ends early. -/
theorem of_take {length : Nat} (inside : length ≤ code.size) {front : List Instruction}
    {ending : Ending} (cut : Decodes (code.take length) cursor front ending)
    (whole : Decodes code cursor instructions .complete) (reached : Reached code cursor)
    (before : cursor ≤ length) :
    ∃ left, instructions = front ++ left ∧ EndsEarly code length left ending := by
  have size : (code.take length).size = length := by simp [inside]
  induction cut generalizing instructions with
  | @complete cursor past =>
      have same : cursor = length := Nat.le_antisymm before (size ▸ past)
      exact ⟨instructions, rfl, .between (same ▸ reached)⟩
  | @badOpcode cursor word found unknown =>
      cases whole.of_fault (.badOpcode (getElem?_of_take found) unknown)
  | @unresolved cursor word opcode cause found known failed =>
      have found' := getElem?_of_take found
      obtain ⟨instruction, rest, rfl, stands, rfl, -⟩ :=
        whole.exists_instruction (Array.getElem?_eq_some_iff.mp found').1
      have same := stands.opcode
      rw [found', Option.bind_some, known, Option.some.injEq] at same
      subst same
      rcases instruction.opcode.truncates_resolve code length _ _ stands.span with
        resolved | ⟨offset, short⟩
      · cases failed.symm.trans resolved
      · cases failed.symm.trans short
        exact ⟨_, rfl, .within instruction rest offset⟩
  | @instruction instruction front ending cutStands tail ih =>
      obtain ⟨word, found, known⟩ := Option.bind_eq_some_iff.mp cutStands.opcode
      have found' := getElem?_of_take found
      obtain ⟨other, rest, same, stands, rfl, following⟩ :=
        whole.exists_instruction (Array.getElem?_eq_some_iff.mp found').1
      -- the instruction resolves to the same span in both streams
      have opcode := stands.opcode
      rw [same, found', Option.bind_some, known, Option.some.injEq] at opcode
      have span := cutStands.span
      rw [opcode, ← same] at span
      have sameSpan : instruction.span = other.span := by
        rcases other.opcode.truncates_resolve code length _ _ stands.span with
          resolved | ⟨offset, short⟩
        · exact Except.ok.inj (span.symm.trans resolved)
        · cases span.symm.trans short
      have whole' : instruction = other := by
        obtain ⟨offset, opcode', span'⟩ := instruction
        cases same
        cases opcode
        cases sameSpan
        rfl
      subst whole'
      obtain ⟨left, split, early⟩ :=
        ih following (reached.next stands) (size ▸ cutStands.next_le_size)
      exact ⟨left, by rw [split, List.cons_append], early⟩

end Decodes

/-- The visits of the cut stream come first among those of the whole one. -/
theorem EndsEarly.visits_prefix {code : Array Word} {length : Nat} {left : List Instruction}
    {ending : Ending} (early : EndsEarly code length left ending) (front : List Instruction) :
    Listing.visits ⟨front, ending⟩ <+: Listing.visits ⟨front ++ left, .complete⟩ := by
  cases early with
  | between _ =>
      rw [Decodes.visits_append]
      exact List.prefix_append _ _
  | within instruction rest offset =>
      rw [Decodes.visits_append, Decodes.visits_cons]
      exact (List.prefix_append_right_inj _).mpr (List.prefix_append [_] _)

namespace Arena

/-- The blocks are the first ones of others, and of these only the last may count fewer
instructions. -/
def Begins (blocks others : List Block) : Prop :=
  blocks = [] ∨ ∃ before last count after,
    blocks = before ++ [{ last with instructions := count }] ∧
      others = before ++ last :: after ∧ count ≤ last.instructions

theorem Begins.offsets_prefix {blocks others : List Block} (begins : Begins blocks others) :
    blocks.map Block.offset <+: others.map Block.offset := by
  rcases begins with rfl | ⟨before, last, count, after, rfl, rfl, -⟩
  · exact List.nil_prefix
  · simp

/-- A block that is followed by another does not count what comes behind that. -/
theorem takeWhile_append_of_divided {marks : Nat → Bool} {visits : List Visit}
    (divided : divide marks visits ≠ []) (back : List Visit) :
    ((visits ++ back).takeWhile fun visit => !marks visit.offset) =
      visits.takeWhile fun visit => !marks visit.offset := by
  induction visits with
  | nil => exact absurd rfl divided
  | cons visit rest ih =>
      cases starts : marks visit.offset with
      | true => simp [starts]
      | false =>
          have later : divide marks rest ≠ [] := by simpa [divide, starts] using divided
          simp [starts, ih later]

theorem length_takeWhile_le {α : Type} (p : α → Bool) (front back : List α) :
    (front.takeWhile p).length ≤ ((front ++ back).takeWhile p).length := by
  rw [List.takeWhile_append]
  split
  · rw [List.length_append]
    exact Nat.le_trans (List.takeWhile_prefix p).length_le (Nat.le_add_right _ _)
  · exact Nat.le_refl _

/-- The first visits are divided into the first blocks. -/
theorem divide_begins (marks : Nat → Bool) (front back : List Visit) :
    Begins (divide marks front) (divide marks (front ++ back)) := by
  induction front with
  | nil => exact Or.inl rfl
  | cons visit rest ih =>
      cases starts : marks visit.offset with
      | false =>
          have plain : ¬marks visit.offset = true := by simp [starts]
          rw [List.cons_append, divide, divide, if_neg plain, if_neg plain]
          exact ih
      | true =>
          rw [List.cons_append, divide, divide, if_pos starts, if_pos starts]
          right
          rcases ih with none | ⟨before, last, count, after, found, others, fewer⟩
          · rw [none]
            exact ⟨[], ⟨visit.offset, visit.opcode, _⟩, _, divide marks (rest ++ back), rfl, rfl,
              Nat.succ_le_succ (length_takeWhile_le _ rest back)⟩
          · rw [takeWhile_append_of_divided (by simp [found]), found, others]
            exact ⟨_ :: before, last, count, after, rfl, rfl, fewer⟩

end Arena

namespace Program

/-- The program with the first words of its stream only. -/
def cut (program : Program) (length : Nat) : Program :=
  { program with code := program.code.take length }

variable {program : Program} {length : Nat}

theorem entry?_cut (jump : 2 ≤ length) :
    Scan.entry? (program.cut length).code = Scan.entry? program.code := by
  have first : (program.code.take length)[0]? = program.code[0]? := by
    rw [getElem?_take, if_pos (by omega)]
  have second : (program.code.take length)[1]? = program.code[1]? := by
    rw [getElem?_take, if_pos (by omega)]
  simp only [Scan.entry?, cut, first, second]

theorem exists_clean (sound : program.scan.corruption? = none) : ∃ start, program.Clean start := by
  cases entry : Scan.entry? program.code with
  | none =>
      rw [scan_of_no_entry entry] at sound
      cases sound
  | some start =>
      rw [scan_of_entry entry] at sound
      exact ⟨start, entry, Ending.eq_complete sound⟩

end Program

/-- If the scan of a program is clean, the scan of its first words, which hold the entry jump, is
clean too or finds an instruction truncated. It does find one unless an instruction ends at the cut.
It finds the first blocks of the program, and only the last of them may count fewer instructions. -/
theorem scan_of_cut {program : Program} (sound : program.scan.corruption? = none) {length : Nat}
    (jump : 2 ≤ length) (inside : length ≤ program.code.size) :
    ((program.cut length).scan.corruption? = none ∨
      ∃ offset, (program.cut length).scan.corruption? = some (.truncated offset)) ∧
    (¬Reached program.code length →
      ∃ offset, (program.cut length).scan.corruption? = some (.truncated offset)) ∧
    (program.cut length).scan.arena.offsets <+: program.scan.arena.offsets ∧
    Arena.Begins (program.cut length).scan.arena.blocks program.scan.arena.blocks := by
  obtain ⟨start, clean⟩ := Program.exists_clean sound
  have entry : Scan.entry? (program.cut length).code = some start :=
    (Program.entry?_cut jump).trans clean.entry
  obtain ⟨left, split, early⟩ :=
    (Listing.decodes_ofCode (program.cut length).code).of_take inside clean.run .first jump
  have visits : (Listing.ofCode (program.cut length).code).visits <+:
      (Listing.ofCode program.code).visits := by
    have whole : Listing.ofCode program.code =
        ⟨(Listing.ofCode (program.cut length).code).instructions ++ left, .complete⟩ := by
      rw [← split, ← clean.complete]
      rfl
    rw [whole]
    exact early.visits_prefix _
  have blocks : Arena.Begins (program.cut length).scan.arena.blocks program.scan.arena.blocks := by
    rw [Program.scan_of_entry entry, Program.scan_of_entry clean.entry]
    obtain ⟨back, same⟩ := visits
    rw [← same]
    exact Arena.divide_begins program.startsBlock _ back
  rw [Program.scan_of_entry entry] at blocks ⊢
  refine ⟨?_, ?_, blocks.offsets_prefix, blocks⟩
  · generalize (Listing.ofCode (program.cut length).code).ending = ending at early
    cases early with
    | between _ => exact Or.inl rfl
    | within _ _ offset => exact Or.inr ⟨offset, rfl⟩
  · intro divided
    generalize (Listing.ofCode (program.cut length).code).ending = ending at early
    cases early with
    | between reached => exact absurd reached divided
    | within _ _ offset => exact ⟨offset, rfl⟩

/-- Duplicates a value, and calls through the dispatch table in the block behind it. -/
def callsAhead : Program :=
  .bare #[90, 2, 22, 73, 8, 8, 0, 5, 78, 1, 1, 6, 13, 98]
    (fun offset => offset == 2 || offset == 8 || offset == 13) []

/-- Cut within the call the program is truncated. Cut in front of the call its first block is
shorter. Cut behind the call, where an instruction ends, the call still misses its table. -/
theorem scan_of_cut_callsAhead :
    callsAhead.scan.corruption? = none ∧ ¬Reached callsAhead.code 7 ∧
      (∃ offset, (callsAhead.cut 7).scan.corruption? = some (.truncated offset)) ∧
      (callsAhead.cut 3).scan.arena.blocks = [⟨2, .dup, 1⟩] ∧
      Arena.Begins [⟨2, .dup, 1⟩] callsAhead.scan.arena.blocks ∧
      (callsAhead.cut 8).scan.corruption? = some (.truncated 5) := by
  have sound : callsAhead.scan.corruption? = none := by decide +kernel
  have unreached : ¬Reached callsAhead.code 7 := by
    intro reached
    have visited : ⟨7, .pushNil⟩ ∈ (Listing.ofCode callsAhead.code).visits :=
      Listing.mem_visits_iff.mpr ⟨reached, rfl⟩
    revert visited
    decide +kernel
  have shorter : (callsAhead.cut 3).scan.arena.blocks = [⟨2, .dup, 1⟩] := by decide +kernel
  have begins := (scan_of_cut sound (by decide : 2 ≤ 3) (by decide)).2.2.2
  rw [shorter] at begins
  exact ⟨sound, unreached, (scan_of_cut sound (by decide) (by decide)).2.1 unreached, shorter,
    begins, by decide +kernel⟩

end ThreadedCode
