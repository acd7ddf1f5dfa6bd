import ThreadedCode.Instruction.Listing

/-!
# The instructions of a stream

Decoding as a relation: which instructions stand in a stream, which offsets decoding comes to, and
what it is that ends it. The relation follows the stream one instruction at a time, and its
induction carries everything that is said about a whole listing.
-/

namespace ThreadedCode

/-- A computation that may fail gives a result exactly if its first step does and the rest too. -/
theorem except_bind_eq_ok {ε α β : Type} {first : Except ε α} {next : α → Except ε β} {result : β} :
    (first >>= next) = .ok result ↔ ∃ value, first = .ok value ∧ next value = .ok result := by
  cases first with
  | error cause => exact ⟨nofun, fun ⟨_, impossible, _⟩ => nomatch impossible⟩
  | ok value =>
      constructor
      · intro found
        exact ⟨value, rfl, found⟩
      · rintro ⟨other, same, found⟩
        cases same
        exact found

theorem except_map_eq_ok {ε α β : Type} {first : Except ε α} {f : α → β} {result : β} :
    f <$> first = .ok result ↔ ∃ value, first = .ok value ∧ f value = result := by
  cases first with
  | error cause => exact ⟨nofun, fun ⟨_, impossible, _⟩ => nomatch impossible⟩
  | ok value =>
      constructor
      · intro found
        exact ⟨value, rfl, Except.ok.inj found⟩
      · rintro ⟨other, same, rfl⟩
        cases same
        rfl

namespace Operands

theorem skip_eq_ok_iff {code : Array Word} {cursor words next : Nat} :
    skip code cursor words = .ok next ↔
      cursor + words < Offset.bound ∧ cursor + words = next ∧ next ≤ code.size := by
  unfold skip Offset.add?
  by_cases small : cursor + words < Offset.bound
  · by_cases inside : cursor + words ≤ code.size
    · simp only [small, inside, if_true, Except.ok.injEq, true_and]
      exact ⟨fun same => ⟨same, same ▸ inside⟩, fun found => found.1⟩
    · simp only [small, inside, if_true, if_false, true_and]
      exact ⟨nofun, fun found => absurd (found.1 ▸ found.2) inside⟩
  · simp only [small, if_false, false_and, iff_false]
    exact nofun

theorem readCount_eq_ok_iff {code : Array Word} {cursor count : Nat} :
    readCount code cursor = .ok count ↔ code[cursor]?.bind Word.index? = some count := by
  unfold readCount indexAt
  cases code[cursor]? with
  | none => simp
  | some word => cases found : word.index? <;> simp [found]

/-- The word at a position is a count: it lies in the stream and is not negative. -/
def CountAt (code : Array Word) (position count : Nat) : Prop :=
  ∃ word, code[position]? = some word ∧ word.toInt = count

/-- Operands that start at the cursor take a number of words, by the counts that are stored among
them. The arguments of a call through a dispatch table are counted at the table. -/
inductive Occupies (code : Array Word) (cursor : Nat) : OperandShape → Nat → Prop
  | fixed (words : Nat) : Occupies code cursor (.fixed words) words
  | coroutine {captures : Nat} (captured : CountAt code (cursor + 2) captures) :
      Occupies code cursor .coroutine (3 + captures)
  | callMulti {table arguments : Nat} (located : CountAt code (cursor + 1) table)
      (counted : CountAt code (table + 2) arguments) :
      Occupies code cursor .callMulti (3 + arguments)
  | funStart {parameters locals : Nat} (named : CountAt code cursor parameters)
      (listed : CountAt code (cursor + 1 + parameters) locals) :
      Occupies code cursor .funStart (3 + parameters + locals)
  | funMulti {cases arguments : Nat} (selected : CountAt code cursor cases)
      (counted : CountAt code (cursor + 1) arguments) :
      Occupies code cursor .funMulti (2 + (arguments + 1) * cases)

section Extents

variable {code : Array Word} {cursor next arity : Nat}

theorem countAt_iff {position count : Nat} :
    CountAt code position count ↔ code[position]?.bind Word.index? = some count := by
  rw [Option.bind_eq_some_iff]
  exact exists_congr fun word => and_congr_right fun _ => Word.index?_eq_some_iff.symm

theorem readCount_iff {position count : Nat} :
    readCount code position = .ok count ↔ CountAt code position count :=
  readCount_eq_ok_iff.trans countAt_iff.symm

/-- The arguments of a dispatch table are counted at its third word. -/
theorem tableArguments_eq_ok_iff {slot table arguments : Nat} :
    tableArguments code slot table = .ok arguments ↔
      table + 2 < Offset.bound ∧ CountAt code (table + 2) arguments := by
  rw [← readCount_iff]
  unfold tableArguments readCount Offset.add?
  by_cases small : table + 2 < Offset.bound
  · rw [if_pos small, Option.bind_some]
    cases code[table + 2]? with
    | none => exact ⟨nofun, fun found => nomatch found.2⟩
    | some word => exact (and_iff_right small).symm
  · rw [if_neg small]
    exact ⟨nofun, fun found => absurd found.1 small⟩

/-- Where resolving ends, the operands take the words up to there. A call through a dispatch table
reports one word more. -/
theorem occupies_of_extent {shape : OperandShape}
    (found : extent code cursor shape = .ok (next, arity)) :
    ∃ length, Occupies code cursor shape length ∧ next = cursor + length ∧
      arity = length + (if shape = .callMulti then 1 else 0) := by
  cases shape with
  | fixed words =>
      simp only [extent, except_bind_eq_ok, skip_eq_ok_iff] at found
      obtain ⟨reached, ⟨-, rfl, -⟩, result⟩ := found
      cases result
      exact ⟨_, .fixed _, rfl, rfl⟩
  | coroutine =>
      simp only [extent, except_bind_eq_ok, skip_eq_ok_iff, readCount_iff] at found
      obtain ⟨counted, ⟨-, rfl, -⟩, captures, captured, reached, ⟨-, rfl, -⟩, result⟩ := found
      cases result
      exact ⟨3 + captures, .coroutine captured, by omega, Nat.add_comm captures 3⟩
  | callMulti =>
      simp only [extent, except_bind_eq_ok, skip_eq_ok_iff, readCount_iff,
        tableArguments_eq_ok_iff] at found
      obtain ⟨slot, ⟨-, rfl, -⟩, table, located, arguments, ⟨-, counted⟩, tags, ⟨-, rfl, -⟩,
        reached, ⟨-, rfl, -⟩, result⟩ := found
      cases result
      exact ⟨3 + arguments, .callMulti located counted, by omega, by simp; omega⟩
  | funStart =>
      simp only [extent, except_bind_eq_ok, skip_eq_ok_iff, readCount_iff] at found
      obtain ⟨parameters, named, counted, ⟨-, rfl, -⟩, locals, listed, frame, ⟨-, rfl, -⟩,
        reached, ⟨-, rfl, -⟩, result⟩ := found
      cases result
      exact ⟨3 + parameters + locals, .funStart named listed, by omega, by simp; omega⟩
  | funMulti =>
      simp only [extent, except_bind_eq_ok, readCount_iff] at found
      obtain ⟨cases, selected, arguments, counted, found⟩ := found
      split at found
      · cases found
      · rename_i size sized
        obtain ⟨width, widened, multiplied⟩ := Option.bind_eq_some_iff.mp sized
        obtain ⟨-, rfl⟩ := Offset.add?_eq_some_iff.mp widened
        obtain ⟨-, rfl⟩ := Offset.mul?_eq_some_iff.mp multiplied
        simp only [except_bind_eq_ok, skip_eq_ok_iff] at found
        obtain ⟨reached, ⟨-, rfl, -⟩, result⟩ := found
        cases result
        exact ⟨2 + (arguments + 1) * cases, .funMulti selected counted, by omega, by simp; omega⟩

theorem extent_fixed {words : Nat}
    (found : extent code cursor (.fixed words) = .ok (next, arity)) :
    next = cursor + words ∧ arity = words := by
  obtain ⟨length, occupies, next, arity⟩ := occupies_of_extent found
  cases occupies
  exact ⟨next, arity⟩

theorem extent_coroutine (found : extent code cursor .coroutine = .ok (next, arity)) :
    next = cursor + arity ∧ 3 ≤ arity := by
  obtain ⟨length, occupies, rfl, rfl⟩ := occupies_of_extent found
  cases occupies with
  | coroutine captured => exact ⟨rfl, Nat.le_add_right 3 _⟩

/-- A call through a dispatch table holds the offset of the table. -/
theorem extent_callMulti (found : extent code cursor .callMulti = .ok (next, arity)) :
    next + 1 = cursor + arity ∧ cursor + 3 ≤ next ∧
      ∃ table, code[cursor + 1]?.bind Word.index? = some table := by
  obtain ⟨length, occupies, rfl, rfl⟩ := occupies_of_extent found
  cases occupies with
  | callMulti located counted => exact ⟨rfl, by omega, _, countAt_iff.mp located⟩

/-- A dispatch table begins with its numbers of cases and arguments, which give its extent. -/
theorem extent_funMulti (found : extent code cursor .funMulti = .ok (next, arity)) :
    ∃ cases arguments, code[cursor]?.bind Word.index? = some cases ∧
      code[cursor + 1]?.bind Word.index? = some arguments ∧
      arity = 2 + (arguments + 1) * cases ∧ next = cursor + arity := by
  obtain ⟨length, occupies, rfl, rfl⟩ := occupies_of_extent found
  cases occupies with
  | funMulti selected counted =>
      exact ⟨_, _, countAt_iff.mp selected, countAt_iff.mp counted, rfl, rfl⟩

end Extents

end Operands

theorem Opcode.eq_callMulti_of_shape {opcode : Opcode} (shape : opcode.shape = .callMulti) :
    opcode = .callMulti := by
  cases opcode <;> first | rfl | cases shape

/-- The span of an instruction is where its operands start, and how far they reach. -/
theorem Opcode.resolve_eq_ok_iff {opcode : Opcode} {code : Array Word} {cursor : Nat}
    {span : Span} :
    opcode.resolve code cursor = .ok span ↔
      span.start = cursor ∧
        Operands.extent code cursor opcode.shape = .ok (span.next, span.arity) := by
  simp only [resolve, except_bind_eq_ok]
  constructor
  · rintro ⟨⟨next, arity⟩, found, result⟩
    cases result
    exact ⟨rfl, found⟩
  · rintro ⟨start, found⟩
    refine ⟨_, found, ?_⟩
    rw [← start]
    rfl

/-- The reported operands are the words of the stream from the cursor on. -/
theorem Opcode.words_getElem? {opcode : Opcode} {code : Array Word} {cursor : Nat} {span : Span}
    (resolved : opcode.resolve code cursor = .ok span) {index : Nat}
    (reported : index < span.arity) : (span.words code)[index]? = code[cursor + index]? := by
  rw [Span.words_eq_take_drop, List.getElem?_take_of_lt reported, List.getElem?_drop,
    (resolve_eq_ok_iff.mp resolved).1, Array.getElem?_toList]

namespace Instruction

/-- The instruction stands in the stream: its opcode is at its offset, and its operands resolve to
its span. -/
structure StandsIn (instruction : Instruction) (code : Array Word) : Prop where
  opcode : code[instruction.offset]?.bind Opcode.ofWord? = some instruction.opcode
  span : instruction.opcode.resolve code (instruction.offset + 1) = .ok instruction.span

namespace StandsIn

variable {instruction : Instruction} {code : Array Word}

theorem extent (stands : instruction.StandsIn code) :
    Operands.extent code (instruction.offset + 1) instruction.opcode.shape =
      .ok (instruction.span.next, instruction.span.arity) :=
  (Opcode.resolve_eq_ok_iff.mp stands.span).2

theorem start (stands : instruction.StandsIn code) :
    instruction.span.start = instruction.offset + 1 :=
  (Opcode.resolve_eq_ok_iff.mp stands.span).1

theorem offset_lt_size (stands : instruction.StandsIn code) : instruction.offset < code.size := by
  obtain ⟨word, found, -⟩ := Option.bind_eq_some_iff.mp stands.opcode
  exact (Array.getElem?_eq_some_iff.mp found).1

theorem offset_lt_next (stands : instruction.StandsIn code) :
    instruction.offset < instruction.next :=
  (Opcode.le_of_resolve stands.span).1

theorem next_le_size (stands : instruction.StandsIn code) : instruction.next ≤ code.size :=
  (Opcode.le_of_resolve stands.span).2

/-- The operands are the words of the stream behind the opcode. -/
theorem operands_getElem? (stands : instruction.StandsIn code) {index : Nat}
    (reported : index < instruction.span.arity) :
    (instruction.operands code)[index]? = code[instruction.offset + 1 + index]? :=
  Opcode.words_getElem? stands.span reported

/-- The operands reach up to the next instruction, and those of a call through a dispatch table
one word further. -/
theorem start_add_arity (stands : instruction.StandsIn code) :
    instruction.offset + 1 + instruction.span.arity =
      if instruction.opcode = .callMulti then instruction.next + 1 else instruction.next := by
  obtain ⟨length, -, next, arity⟩ := Operands.occupies_of_extent stands.extent
  have reached : instruction.next = instruction.offset + 1 + length := next
  by_cases multi : instruction.opcode = .callMulti
  · have shape : instruction.opcode.shape = .callMulti := by rw [multi]; rfl
    rw [if_pos multi, arity, if_pos shape, reached]
    rfl
  · rw [if_neg multi, arity, if_neg fun shape => multi (Opcode.eq_callMulti_of_shape shape),
      reached]
    rfl

/-- An offset holds at most one instruction. -/
theorem unique {other : Instruction} (stands : instruction.StandsIn code)
    (otherStands : other.StandsIn code) (same : instruction.offset = other.offset) :
    instruction = other := by
  obtain ⟨offset, opcode, span⟩ := instruction
  obtain ⟨offset', opcode', span'⟩ := other
  cases same
  have sameOpcode : opcode = opcode' :=
    Option.some.inj (stands.opcode.symm.trans otherStands.opcode)
  subst sameOpcode
  have sameSpan : span = span' := Except.ok.inj (stands.span.symm.trans otherStands.span)
  rw [sameSpan]

end StandsIn

end Instruction

/-- What is wrong with the instruction at an offset: its opcode is none, or its operands do not
resolve. -/
inductive FaultAt (code : Array Word) : Nat → Corruption → Prop
  | badOpcode {offset : Nat} {word : Word} (found : code[offset]? = some word)
      (unknown : Opcode.ofWord? word = none) : FaultAt code offset (.badOpcode offset word)
  | unresolved {offset : Nat} {word : Word} {opcode : Opcode} {cause : Corruption}
      (found : code[offset]? = some word) (known : Opcode.ofWord? word = some opcode)
      (failed : opcode.resolve code (offset + 1) = .error cause) : FaultAt code offset cause

/-- The offsets that decoding comes to: the first instruction, and the offset after every
instruction that it comes to. -/
inductive Reached (code : Array Word) : Nat → Prop
  | first : Reached code Instruction.first
  | next {instruction : Instruction} (before : Reached code instruction.offset)
      (stands : instruction.StandsIn code) : Reached code instruction.next

theorem Ending.eq_complete {ending : Ending} (sound : ending.corruption? = none) :
    ending = .complete := by
  cases ending with
  | complete => rfl
  | badOpcode _ _ | unresolved _ _ _ => cases sound

/-- Decoding from a cursor on gives the instructions and comes to the ending. -/
inductive Decodes (code : Array Word) : Nat → List Instruction → Ending → Prop
  | complete {cursor : Nat} (past : code.size ≤ cursor) : Decodes code cursor [] .complete
  | badOpcode {cursor : Nat} {word : Word} (found : code[cursor]? = some word)
      (unknown : Opcode.ofWord? word = none) : Decodes code cursor [] (.badOpcode cursor word)
  | unresolved {cursor : Nat} {word : Word} {opcode : Opcode} {cause : Corruption}
      (found : code[cursor]? = some word) (known : Opcode.ofWord? word = some opcode)
      (failed : opcode.resolve code (cursor + 1) = .error cause) :
      Decodes code cursor [] (.unresolved cursor opcode cause)
  | instruction {instruction : Instruction} {rest : List Instruction} {ending : Ending}
      (stands : instruction.StandsIn code) (tail : Decodes code instruction.next rest ending) :
      Decodes code instruction.offset (instruction :: rest) ending

/-- The listing from a cursor on is what decoding gives there. -/
theorem Listing.decodes_decodeFrom (code : Array Word) (cursor : Nat) :
    Decodes code cursor (decodeFrom code cursor).instructions (decodeFrom code cursor).ending := by
  fun_induction decodeFrom code cursor with
  | case1 cursor inside unknown =>
      exact .badOpcode (Array.getElem?_eq_getElem inside) unknown
  | case2 cursor inside opcode known cause failed =>
      exact .unresolved (Array.getElem?_eq_getElem inside) known failed
  | case3 cursor inside opcode known span found ih =>
      have stands : Instruction.StandsIn ⟨cursor, opcode, span⟩ code :=
        ⟨by rw [Array.getElem?_eq_getElem inside]; exact known, found⟩
      exact .instruction stands ih
  | case4 cursor outside => exact .complete (Nat.le_of_not_lt outside)

theorem Listing.decodes_ofCode (code : Array Word) :
    Decodes code Instruction.first (ofCode code).instructions (ofCode code).ending :=
  decodes_decodeFrom code Instruction.first

namespace Decodes

variable {code : Array Word} {cursor : Nat} {instructions : List Instruction} {ending : Ending}

theorem stands (run : Decodes code cursor instructions ending) {instruction : Instruction}
    (member : instruction ∈ instructions) : instruction.StandsIn code := by
  induction run with
  | complete _ | badOpcode _ _ | unresolved _ _ _ => cases member
  | instruction stands tail ih =>
      rcases List.mem_cons.mp member with rfl | later
      · exact stands
      · exact ih later

/-- Decoding does not go back. -/
theorem cursor_le (run : Decodes code cursor instructions ending) {instruction : Instruction}
    (member : instruction ∈ instructions) : cursor ≤ instruction.offset := by
  induction run with
  | complete _ | badOpcode _ _ | unresolved _ _ _ => cases member
  | instruction stands tail ih =>
      rcases List.mem_cons.mp member with rfl | later
      · exact Nat.le_refl _
      · exact Nat.le_of_lt (Nat.lt_of_lt_of_le stands.offset_lt_next (ih later))

theorem offsets_ascending (run : Decodes code cursor instructions ending) :
    (instructions.map Instruction.offset).Pairwise (· < ·) := by
  induction run with
  | complete _ | badOpcode _ _ | unresolved _ _ _ => exact List.Pairwise.nil
  | instruction stands tail ih =>
      rw [List.map_cons, List.pairwise_cons]
      constructor
      · intro offset member
        obtain ⟨later, found, rfl⟩ := List.mem_map.mp member
        exact Nat.lt_of_lt_of_le stands.offset_lt_next (tail.cursor_le found)
      · exact ih

/-- Instructions do not overlap. -/
theorem next_le_offset (run : Decodes code cursor instructions ending) :
    instructions.Pairwise fun earlier later => earlier.next ≤ later.offset := by
  induction run with
  | complete _ | badOpcode _ _ | unresolved _ _ _ => exact List.Pairwise.nil
  | instruction stands tail ih =>
      rw [List.pairwise_cons]
      constructor
      · intro later member
        exact tail.cursor_le member
      · exact ih

theorem reached (run : Decodes code cursor instructions ending) (start : Reached code cursor)
    {instruction : Instruction} (member : instruction ∈ instructions) :
    Reached code instruction.offset := by
  induction run with
  | complete _ | badOpcode _ _ | unresolved _ _ _ => cases member
  | instruction stands tail ih =>
      rcases List.mem_cons.mp member with rfl | later
      · exact start
      · exact ih (start.next stands) later

/-- Where an instruction stands, decoding begins with it. -/
theorem of_stands {instruction : Instruction} (stands : instruction.StandsIn code)
    (run : Decodes code instruction.offset instructions ending) :
    ∃ rest, instructions = instruction :: rest ∧ Decodes code instruction.next rest ending := by
  generalize same : instruction.offset = cursor at run
  obtain ⟨word, found, known⟩ := Option.bind_eq_some_iff.mp stands.opcode
  rw [same] at found
  cases run with
  | complete past =>
      have := (Array.getElem?_eq_some_iff.mp found).1
      omega
  | badOpcode found' unknown =>
      cases Option.some.inj (found.symm.trans found')
      cases known.symm.trans unknown
  | unresolved found' known' failed =>
      cases Option.some.inj (found.symm.trans found')
      cases Option.some.inj (known.symm.trans known')
      have span := stands.span
      rw [same] at span
      cases span.symm.trans failed
  | @instruction first rest _ firstStands tail =>
      cases stands.unique firstStands same
      exact ⟨rest, rfl, tail⟩

/-- Where something is wrong, decoding ends with it. -/
theorem of_fault {cause : Corruption} (fault : FaultAt code cursor cause)
    (run : Decodes code cursor instructions ending) : ending.corruption? = some cause := by
  cases fault with
  | badOpcode found unknown =>
      cases run with
      | complete past =>
          have := (Array.getElem?_eq_some_iff.mp found).1
          omega
      | badOpcode found' _ =>
          cases Option.some.inj (found.symm.trans found')
          rfl
      | unresolved found' known _ =>
          cases Option.some.inj (found.symm.trans found')
          cases unknown.symm.trans known
      | instruction stands _ =>
          have known := stands.opcode
          simp [found, unknown] at known
  | unresolved found known failed =>
      cases run with
      | complete past =>
          have := (Array.getElem?_eq_some_iff.mp found).1
          omega
      | badOpcode found' unknown =>
          cases Option.some.inj (found.symm.trans found')
          cases unknown.symm.trans known
      | unresolved found' known' failed' =>
          cases Option.some.inj (found.symm.trans found')
          cases Option.some.inj (known.symm.trans known')
          cases failed.symm.trans failed'
          rfl
      | instruction stands _ =>
          have known' := stands.opcode
          simp only [found, Option.bind_some, known, Option.some.injEq] at known'
          subst known'
          cases failed.symm.trans stands.span

/-- A corruption that ends the decoding is wrong with an offset it came to. -/
theorem exists_fault (run : Decodes code cursor instructions ending) (start : Reached code cursor)
    {cause : Corruption} (corrupt : ending.corruption? = some cause) :
    ∃ offset, Reached code offset ∧ FaultAt code offset cause := by
  induction run with
  | complete _ => cases corrupt
  | badOpcode found unknown =>
      cases corrupt
      exact ⟨_, start, .badOpcode found unknown⟩
  | unresolved found known failed =>
      cases corrupt
      exact ⟨_, start, .unresolved found known failed⟩
  | instruction stands tail ih => exact ih (start.next stands) corrupt

end Decodes

/-- Every offset that decoding comes to divides the listing in two. -/
theorem Reached.divides {code : Array Word} {offset : Nat} (reached : Reached code offset)
    {instructions : List Instruction} {ending : Ending}
    (run : Decodes code Instruction.first instructions ending) :
    ∃ before after, instructions = before ++ after ∧ Decodes code offset after ending := by
  induction reached with
  | first => exact ⟨[], instructions, rfl, run⟩
  | @next instruction before stands ih =>
      obtain ⟨earlier, after, same, tail⟩ := ih
      obtain ⟨rest, rfl, following⟩ := tail.of_stands stands
      exact ⟨earlier ++ [instruction], rest, by simp [same], following⟩

/-- If decoding comes to the end of the stream, nothing is wrong on the way. -/
theorem Reached.not_fault {code : Array Word} {offset : Nat} (reached : Reached code offset)
    {instructions : List Instruction}
    (run : Decodes code Instruction.first instructions .complete) (cause : Corruption) :
    ¬FaultAt code offset cause := by
  intro fault
  obtain ⟨before, after, -, tail⟩ := reached.divides run
  cases tail.of_fault fault

/-- Every instruction that decoding comes to is listed. -/
theorem Reached.mem_instructions {code : Array Word} {instruction : Instruction}
    (reached : Reached code instruction.offset) (stands : instruction.StandsIn code)
    {instructions : List Instruction} {ending : Ending}
    (run : Decodes code Instruction.first instructions ending) : instruction ∈ instructions := by
  obtain ⟨before, after, rfl, tail⟩ := reached.divides run
  obtain ⟨rest, rfl, -⟩ := tail.of_stands stands
  exact List.mem_append_right before List.mem_cons_self

end ThreadedCode
