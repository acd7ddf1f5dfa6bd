import Mathlib.Algebra.Group.Nat.Defs
import ThreadedCode.Proofs.Decoding

/-!
# Extents of operands

How many words the operands of an instruction take is said here by the counts that are stored among
them, without following a cursor. Resolving succeeds exactly if all counts are there and the words
they ask for lie in the stream. The sums and products on the way stay within a machine word, which
is shown by resolving once more with every one of them checked.
-/

namespace ThreadedCode

theorem Word.lt_of_index? {word : Word} {index : Nat} (found : word.index? = some index) :
    index < 2 ^ 31 := by
  have value := Word.index?_eq_some_iff.mp found
  have below := Int32.toInt_lt word
  omega

namespace Operands

section Counts

variable {code : Array Word} {position count : Nat}

theorem CountAt.lt (found : CountAt code position count) : count < 2 ^ 31 := by
  obtain ⟨word, -, index⟩ := Option.bind_eq_some_iff.mp (countAt_iff.mp found)
  exact Word.lt_of_index? index

theorem CountAt.unique {other : Nat} (found : CountAt code position count)
    (again : CountAt code position other) : count = other :=
  Option.some.inj ((countAt_iff.mp found).symm.trans (countAt_iff.mp again))

end Counts

/-- The operands take one number of words only. -/
theorem Occupies.unique {code : Array Word} {cursor length other : Nat} {shape : OperandShape}
    (occupies : Occupies code cursor shape length) (again : Occupies code cursor shape other) :
    length = other := by
  cases occupies with
  | fixed words =>
      cases again
      rfl
  | coroutine captured =>
      cases again with
      | coroutine captured' => rw [captured.unique captured']
  | callMulti located counted =>
      cases again with
      | callMulti located' counted' =>
          cases located.unique located'
          rw [counted.unique counted']
  | funStart named listed =>
      cases again with
      | funStart named' listed' =>
          cases named.unique named'
          rw [listed.unique listed']
  | funMulti selected counted =>
      cases again with
      | funMulti selected' counted' => rw [selected.unique selected', counted.unique counted']

section Extents

variable {code : Array Word} {cursor : Nat}

theorem skip_iff (addressable : code.size < Offset.bound) {words next : Nat} :
    skip code cursor words = .ok next ↔ cursor + words = next ∧ next ≤ code.size := by
  rw [skip_eq_ok_iff]
  constructor
  · exact And.right
  · rintro ⟨rfl, inside⟩
    exact ⟨Nat.lt_of_le_of_lt inside addressable, rfl, inside⟩

theorem table_lt {position table : Nat} (located : CountAt code position table) :
    table + 2 < Offset.bound := by
  have small := located.lt
  show table + 2 < 18446744073709551616
  omega

theorem tableArguments_iff {position slot table arguments : Nat}
    (located : CountAt code position table) :
    tableArguments code slot table = .ok arguments ↔ CountAt code (table + 2) arguments :=
  tableArguments_eq_ok_iff.trans (and_iff_right (table_lt located))

theorem cases_le {first second cases arguments : Nat} (selected : CountAt code first cases)
    (counted : CountAt code second arguments) : (arguments + 1) * cases ≤ 2 ^ 62 :=
  calc
    (arguments + 1) * cases ≤ 2 ^ 31 * 2 ^ 31 :=
      Nat.mul_le_mul (Nat.succ_le_of_lt counted.lt) (Nat.le_of_lt selected.lt)
    _ = 2 ^ 62 := rfl

/-- The words of all cases fit a machine word, however many arguments and cases there are. -/
theorem caseWords_eq {first second cases arguments : Nat} (selected : CountAt code first cases)
    (counted : CountAt code second arguments) :
    ((Offset.add? arguments 1).bind fun width => Offset.mul? width cases) =
      some ((arguments + 1) * cases) := by
  have width : arguments + 1 < Offset.bound :=
    Nat.lt_of_le_of_lt (Nat.succ_le_of_lt counted.lt) (by decide)
  have size : (arguments + 1) * cases < Offset.bound :=
    Nat.lt_of_le_of_lt (cases_le selected counted) (by decide)
  rw [Offset.add?_eq_some_iff.mpr ⟨width, rfl⟩, Option.bind_some]
  exact Offset.mul?_eq_some_iff.mpr ⟨size, rfl⟩

theorem pure_extent {next arity next' arity' : Nat} (sameNext : next = next')
    (sameArity : arity = arity') :
    (pure (next, arity) : Except Corruption (Nat × Nat)) = .ok (next', arity') := by
  rw [sameNext, sameArity]
  rfl

/-- Operands that lie in the stream resolve. -/
theorem extent_of_occupies (addressable : code.size < Offset.bound) {shape : OperandShape}
    {length : Nat} (occupies : Occupies code cursor shape length)
    (fits : cursor + length ≤ code.size) :
    extent code cursor shape =
      .ok (cursor + length, length + (if shape = .callMulti then 1 else 0)) := by
  cases occupies with
  | fixed words =>
      simp only [extent, except_bind_eq_ok, skip_iff addressable]
      exact ⟨_, ⟨rfl, fits⟩, rfl⟩
  | @coroutine captures captured =>
      simp only [extent, except_bind_eq_ok, skip_iff addressable, readCount_iff]
      exact ⟨_, ⟨rfl, by omega⟩, captures, captured, _, ⟨rfl, by omega⟩,
        pure_extent (by omega) (by simp; omega)⟩
  | @callMulti table arguments located counted =>
      simp only [extent, except_bind_eq_ok, skip_iff addressable, readCount_iff]
      exact ⟨_, ⟨rfl, by omega⟩, table, located, arguments,
        (tableArguments_iff located).mpr counted, _, ⟨rfl, by omega⟩, _, ⟨rfl, by omega⟩,
        pure_extent (by omega) (by simp; omega)⟩
  | @funStart parameters locals named listed =>
      simp only [extent, except_bind_eq_ok, skip_iff addressable, readCount_iff]
      exact ⟨parameters, named, _, ⟨rfl, by omega⟩, locals, listed, _, ⟨rfl, by omega⟩, _,
        ⟨rfl, by omega⟩, pure_extent (by omega) (by simp; omega)⟩
  | @funMulti cases arguments selected counted =>
      simp only [extent, except_bind_eq_ok, readCount_iff]
      refine ⟨cases, selected, arguments, counted, ?_⟩
      rw [caseWords_eq selected counted]
      simp only [except_bind_eq_ok, skip_iff addressable]
      exact ⟨_, ⟨rfl, by omega⟩, pure_extent (by omega) (by simp; omega)⟩

end Extents

/-- What ends the resolving of operands if every sum and product is checked. -/
inductive Stop where
  /-- A sum or a product does not fit a machine word. -/
  | overflow
  /-- The stream is corrupt. -/
  | corrupt (cause : Corruption)
  deriving DecidableEq, Repr

namespace Checked

/-- The sum, which must fit a machine word. -/
def sum (a b : Nat) : Except Stop Nat := (Offset.add? a b).elim (.error .overflow) .ok

/-- The product, which must fit a machine word. -/
def product (a b : Nat) : Except Stop Nat := (Offset.mul? a b).elim (.error .overflow) .ok

/-- Reads the word at the cursor as a count or a position. -/
def count (code : Array Word) (cursor : Nat) : Except Stop Nat :=
  (readCount code cursor).mapError .corrupt

/-- Passes over some words that must all lie in the stream. -/
def skip (code : Array Word) (cursor words : Nat) : Except Stop Nat := do
  let next ← sum cursor words
  if next ≤ code.size then .ok next else .error (.corrupt (.truncated cursor))

/-- Where the operands end and how many there are. Offsets and arities are sums like all others. -/
def extent (code : Array Word) (cursor : Nat) : OperandShape → Except Stop (Nat × Nat)
  | .fixed words => do
    let next ← skip code cursor words
    return (next, words)
  | .coroutine => do
    let counted ← skip code cursor 2
    let behind ← sum counted 1
    let captures ← count code counted
    let next ← skip code behind captures
    let arity ← sum captures 3
    return (next, arity)
  | .callMulti => do
    let slot ← skip code cursor 1
    let behind ← sum slot 1
    let table ← count code slot
    let _ ← sum table 2
    let arguments ← (tableArguments code slot table).mapError .corrupt
    let tags ← skip code behind 1
    let next ← skip code tags arguments
    let arity ← sum arguments 4
    return (next, arity)
  | .funStart => do
    let named ← sum cursor 1
    let parameters ← count code cursor
    let counted ← skip code named parameters
    let listed ← sum counted 1
    let locals ← count code counted
    let frame ← skip code listed locals
    let next ← skip code frame 1
    let defined ← sum parameters locals
    let arity ← sum defined 3
    return (next, arity)
  | .funMulti => do
    let second ← sum cursor 1
    let cases ← count code cursor
    let body ← sum second 1
    let arguments ← count code second
    let width ← sum arguments 1
    let size ← product width cases
    let next ← skip code body size
    let arity ← sum size 2
    return (next, arity)

/-- The operands of an instruction, with every sum and product checked. -/
def resolve (opcode : Opcode) (code : Array Word) (cursor : Nat) : Except Stop Span := do
  let (next, arity) ← extent code cursor opcode.shape
  return { start := cursor, next, arity }

theorem sum_eq {a b : Nat} (fits : a + b < Offset.bound) : sum a b = .ok (a + b) := by
  rw [sum, Offset.add?_eq_some_iff.mpr ⟨fits, rfl⟩]
  rfl

theorem product_eq {a b : Nat} (fits : a * b < Offset.bound) : product a b = .ok (a * b) := by
  rw [product, Offset.mul?_eq_some_iff.mpr ⟨fits, rfl⟩]
  rfl

theorem ok_bind {ε α β : Type} (value : α) (next : α → Except ε β) :
    ((.ok value : Except ε α) >>= next) = next value := rfl

/-- Checked and unchecked computations agree if they begin in the same way and agree from there
on. -/
theorem bind_eq {α β : Type} {first : Except Corruption α} {checked : α → Except Stop β}
    {next : α → Except Corruption β}
    (later : ∀ value, first = .ok value → checked value = (next value).mapError .corrupt) :
    (first.mapError .corrupt >>= checked) = (first >>= next).mapError .corrupt := by
  cases first with
  | error cause => rfl
  | ok value => exact later value rfl

section Streams

variable {code : Array Word} {cursor : Nat}

theorem skip_eq {words : Nat} (fits : cursor + words < Offset.bound) :
    skip code cursor words = (Operands.skip code cursor words).mapError .corrupt := by
  simp only [skip, Operands.skip, sum_eq fits, Offset.add?_eq_some_iff.mpr ⟨fits, rfl⟩, ok_bind]
  split <;> rfl

variable (short : code.size < 2 ^ 61) (inside : cursor ≤ code.size)

include short inside

theorem coroutine_eq :
    extent code cursor .coroutine = (Operands.extent code cursor .coroutine).mapError .corrupt := by
  have wide : 2 ^ 63 < Offset.bound := by decide
  rw [extent, skip_eq (by omega)]
  refine bind_eq fun counted skipped => ?_
  have reached := (le_of_skip skipped).2
  rw [sum_eq (by omega), ok_bind]
  refine bind_eq fun captures captured => ?_
  have few := (readCount_iff.mp captured).lt
  rw [skip_eq (by omega)]
  refine bind_eq fun next _ => ?_
  rw [sum_eq (by omega)]
  rfl

theorem callMulti_eq :
    extent code cursor .callMulti = (Operands.extent code cursor .callMulti).mapError .corrupt := by
  have wide : 2 ^ 63 < Offset.bound := by decide
  rw [extent, skip_eq (by omega)]
  refine bind_eq fun slot skipped => ?_
  have reachedSlot := (le_of_skip skipped).2
  rw [sum_eq (by omega), ok_bind]
  refine bind_eq fun table read => ?_
  have located := readCount_iff.mp read
  rw [sum_eq (table_lt located), ok_bind]
  refine bind_eq fun arguments counted => ?_
  have few := ((tableArguments_iff located).mp counted).lt
  rw [skip_eq (by omega)]
  refine bind_eq fun tags skipped => ?_
  have reachedTags := (le_of_skip skipped).2
  rw [skip_eq (by omega)]
  refine bind_eq fun next _ => ?_
  rw [sum_eq (by omega)]
  rfl

theorem funStart_eq :
    extent code cursor .funStart = (Operands.extent code cursor .funStart).mapError .corrupt := by
  have wide : 2 ^ 63 < Offset.bound := by decide
  rw [extent, sum_eq (by omega), ok_bind]
  refine bind_eq fun parameters named => ?_
  have fewParameters := (readCount_iff.mp named).lt
  rw [skip_eq (by omega)]
  refine bind_eq fun counted skipped => ?_
  have reachedCount := (le_of_skip skipped).2
  rw [sum_eq (by omega), ok_bind]
  refine bind_eq fun locals listed => ?_
  have fewLocals := (readCount_iff.mp listed).lt
  rw [skip_eq (by omega)]
  refine bind_eq fun frame skipped => ?_
  have reachedFrame := (le_of_skip skipped).2
  rw [skip_eq (by omega)]
  refine bind_eq fun next _ => ?_
  rw [sum_eq (by omega), ok_bind, sum_eq (by omega)]
  rfl

theorem funMulti_eq :
    extent code cursor .funMulti = (Operands.extent code cursor .funMulti).mapError .corrupt := by
  have wide : 2 ^ 63 < Offset.bound := by decide
  rw [extent, sum_eq (by omega), ok_bind]
  refine bind_eq fun cases read => ?_
  have selected := readCount_iff.mp read
  rw [sum_eq (by omega), ok_bind]
  refine bind_eq fun arguments read => ?_
  have counted := readCount_iff.mp read
  have few := counted.lt
  have size := cases_le selected counted
  rw [sum_eq (by omega), ok_bind, product_eq (by omega), ok_bind, caseWords_eq selected counted,
    skip_eq (by omega)]
  refine bind_eq fun next _ => ?_
  rw [sum_eq (by omega)]
  rfl

/-- In a stream that memory can hold, resolving never leaves the machine words. -/
theorem resolve_eq (opcode : Opcode) :
    resolve opcode code cursor = (opcode.resolve code cursor).mapError .corrupt := by
  have same : extent code cursor opcode.shape =
      (Operands.extent code cursor opcode.shape).mapError .corrupt := by
    cases shape : opcode.shape with
    | fixed words =>
        have few : words ≤ 3 := by cases opcode <;> cases shape <;> decide
        have wide : 2 ^ 63 < Offset.bound := by decide
        rw [extent, skip_eq (by omega)]
        exact bind_eq fun next _ => rfl
    | coroutine => exact coroutine_eq short inside
    | callMulti => exact callMulti_eq short inside
    | funStart => exact funStart_eq short inside
    | funMulti => exact funMulti_eq short inside
  rw [resolve, same]
  exact bind_eq fun extent _ => rfl

end Streams

end Checked

end Operands

open Operands

/-- An instruction resolves to a span of a length exactly if its operands have that length and lie
in the stream. -/
theorem Opcode.resolve_iff_occupies {code : Array Word} {cursor : Nat} {opcode : Opcode}
    {span : Span} (addressable : code.size < Offset.bound) :
    opcode.resolve code cursor = .ok span ↔
      ∃ length, Occupies code cursor opcode.shape length ∧ cursor + length ≤ code.size ∧
        span =
          ⟨cursor, cursor + length, length + (if opcode.shape = .callMulti then 1 else 0)⟩ := by
  rw [resolve_eq_ok_iff]
  constructor
  · rintro ⟨start, found⟩
    obtain ⟨length, occupies, next, arity⟩ := occupies_of_extent found
    refine ⟨length, occupies, next ▸ (le_of_extent found).2, ?_⟩
    rw [← next, ← arity, ← start]
  · rintro ⟨length, occupies, inside, rfl⟩
    exact ⟨rfl, extent_of_occupies addressable occupies inside⟩

/-- The reported operands are the occupied words, and as many words more as are reported beyond
them. -/
theorem Span.words_of_excess (code : Array Word) (start length : Nat) (further : Bool) :
    Span.words ⟨start, start + length, length + (if further then 1 else 0)⟩ code =
      (code.extract start (start + length)).toList
        ++ (if further then code[start + length]?.toList else []) := by
  have occupied : (code.extract start (start + length)).toList =
      (code.toList.drop start).take length := by
    simp [List.extract_eq_take_drop]
  rw [words_eq_take_drop, occupied]
  cases further with
  | false => exact (List.append_nil _).symm
  | true =>
      rw [if_pos rfl, if_pos rfl, List.take_add_one, List.getElem?_drop, Array.getElem?_toList]

/-- In a stream whose offsets fit a machine word, operands resolve exactly if all counts among them
lie in the stream and are not negative, and the words they ask for lie in the stream too. The span
is then determined by the counts. In a stream that memory can hold, no sum or product on the way
exceeds a machine word, and the words of all cases of a dispatch table never do. -/
theorem resolve_exact {code : Array Word} {cursor : Nat} (addressable : code.size < Offset.bound)
    (inside : cursor ≤ code.size) (opcode : Opcode) :
    ((∃ span, opcode.resolve code cursor = .ok span) ↔
      ∃ length, Occupies code cursor opcode.shape length ∧ cursor + length ≤ code.size) ∧
    (∀ span, opcode.resolve code cursor = .ok span →
      span.start = cursor ∧ cursor ≤ span.next ∧ span.next ≤ code.size ∧
      (∀ length, Occupies code cursor opcode.shape length ↔ span.next - cursor = length) ∧
      span.arity = span.next - cursor + (if opcode.shape = .callMulti then 1 else 0) ∧
      span.words code = (code.extract cursor span.next).toList
        ++ (if opcode.shape = .callMulti then code[span.next]?.toList else [])) ∧
    (code.size < 2 ^ 61 →
      Checked.resolve opcode code cursor = (opcode.resolve code cursor).mapError .corrupt ∧
      (∀ span, opcode.resolve code cursor = .ok span → span.start + span.arity < Offset.bound) ∧
      ∀ cases arguments, CountAt code cursor cases → CountAt code (cursor + 1) arguments →
        ((Offset.add? arguments 1).bind fun width => Offset.mul? width cases) =
          some ((arguments + 1) * cases)) := by
  refine ⟨?_, ?_, fun short => ⟨Checked.resolve_eq short inside opcode, ?_, ?_⟩⟩
  · simp only [Opcode.resolve_iff_occupies addressable]
    constructor
    · rintro ⟨span, length, occupies, fits, -⟩
      exact ⟨length, occupies, fits⟩
    · rintro ⟨length, occupies, fits⟩
      exact ⟨_, length, occupies, fits, rfl⟩
  · intro span found
    obtain ⟨length, occupies, fits, rfl⟩ := (Opcode.resolve_iff_occupies addressable).mp found
    have exactly : cursor + length - cursor = length := Nat.add_sub_cancel_left cursor length
    refine ⟨rfl, Nat.le_add_right cursor length, fits, ?_, ?_, ?_⟩
    · intro other
      rw [exactly]
      exact ⟨occupies.unique, fun same => same ▸ occupies⟩
    · rw [exactly]
    · simpa using Span.words_of_excess code cursor length (opcode.shape = .callMulti)
  · intro span found
    obtain ⟨length, occupies, fits, rfl⟩ := (Opcode.resolve_iff_occupies addressable).mp found
    have wide : 2 ^ 63 < Offset.bound := by decide
    show cursor + (length + _) < Offset.bound
    split <;> omega
  · intro cases arguments selected counted
    exact caseWords_eq selected counted

/-- Calls through the dispatch table behind it, which has one case of one argument. -/
def callsThroughTable : Array Word := #[90, 2, 73, 7, 7, 0, 5, 78, 1, 1, 6, 12, 98]

/-- The window of the call reaches into the table. -/
theorem resolve_exact_callsThroughTable :
    callsThroughTable.size < Offset.bound ∧ 3 ≤ callsThroughTable.size ∧
      Opcode.callMulti.resolve callsThroughTable 3 = .ok ⟨3, 7, 5⟩ ∧
      (⟨3, 7, 5⟩ : Span).words callsThroughTable =
        (callsThroughTable.extract 3 7).toList ++ [78] ∧
      Occupies callsThroughTable 3 .callMulti 4 ∧
      Checked.resolve .callMulti callsThroughTable 3 = .ok ⟨3, 7, 5⟩ := by
  have addressable : callsThroughTable.size < Offset.bound := by decide
  have inside : 3 ≤ callsThroughTable.size := by decide
  have resolved : Opcode.callMulti.resolve callsThroughTable 3 = .ok ⟨3, 7, 5⟩ := rfl
  obtain ⟨-, spans, machine⟩ := resolve_exact addressable inside .callMulti
  obtain ⟨-, -, -, length, -, words⟩ := spans _ resolved
  exact ⟨addressable, inside, resolved, words, (length 4).mpr rfl,
    (machine (by decide)).1.trans (congrArg (Except.mapError _) resolved)⟩

end ThreadedCode
