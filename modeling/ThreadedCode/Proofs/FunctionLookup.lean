import ThreadedCode.Image.Basic

/-!
# Finding a function by its start

The function that starts at an offset is found through an index of the function table. The index
is filled entry by entry: it holds the position of the last entry so far that starts at an offset.
Entries with a negative start take up a position in the table but are not in the index.
-/

namespace ThreadedCode

namespace FunctionEntry

/-- The entries that start at the offset, in the order of the table. -/
def startingAt (functions : List FunctionEntry) (offset : Nat) : List FunctionEntry :=
  functions.filter (·.start.toInt = offset)

section Table

variable (functions : List FunctionEntry) (offset : Nat)

theorem getLast?_startingAt_concat (entry : FunctionEntry) :
    (startingAt (functions ++ [entry]) offset).getLast? =
      if entry.start.toInt = offset then some entry
      else (startingAt functions offset).getLast? := by
  unfold startingAt
  rw [List.filter_append]
  split
  next here => simp [here]
  next elsewhere => simp [elsewhere]

theorem startingAt_eq_nil_iff :
    startingAt functions offset = [] ↔
      ∀ entry ∈ functions, entry.start.toInt ≠ offset := by
  simp [startingAt]

/-- No offset is the start of an entry whose start is negative. -/
theorem startingAt_filter_nonneg :
    startingAt (functions.filter (0 ≤ ·.start.toInt)) offset = startingAt functions offset := by
  unfold startingAt
  rw [List.filter_filter]
  apply List.filter_congr
  intro entry _
  by_cases here : entry.start.toInt = offset <;> simp [here]

end Table

end FunctionEntry

namespace Image

open FunctionEntry (startingAt)

theorem getElem?_indexEntry (index : Std.HashMap Nat Nat) (entry : FunctionEntry)
    (position offset : Nat) :
    (indexEntry index (entry, position))[offset]? =
      if entry.start.toInt = offset then some position else index[offset]? := by
  unfold indexEntry
  cases found : entry.start.index? with
  | none =>
      have negative : entry.start.toInt < 0 := Word.index?_eq_none_iff.mp found
      have elsewhere : entry.start.toInt ≠ offset := by omega
      rw [if_neg elsewhere]
  | some start =>
      rw [Word.index?_eq_some_iff.mp found, Std.HashMap.getElem?_insert]
      simp only [beq_iff_eq, Int.ofNat_inj]

/-- The index leads from every offset to the last entry that starts there. -/
structure Indexes (index : Std.HashMap Nat Nat) (functions : List FunctionEntry) : Prop where
  within : ∀ {offset position : Nat}, index[offset]? = some position → position < functions.length
  last : ∀ offset : Nat,
    index[offset]?.bind (functions[·]?) = (startingAt functions offset).getLast?

namespace Indexes

theorem empty : Indexes ∅ [] where
  within found := by simp at found
  last offset := by simp [startingAt]

variable {index : Std.HashMap Nat Nat} {functions : List FunctionEntry}

/-- An entry goes into the index under the next position of the table, whatever became of the
entries before it. -/
theorem concat (known : Indexes index functions) (entry : FunctionEntry) :
    Indexes (indexEntry index (entry, functions.length)) (functions ++ [entry]) where
  within {offset position} found := by
    rw [getElem?_indexEntry] at found
    rw [List.length_append, List.length_singleton]
    split at found
    next =>
      have : functions.length = position := Option.some.inj found
      omega
    next =>
      have := known.within found
      omega
  last offset := by
    rw [getElem?_indexEntry, FunctionEntry.getLast?_startingAt_concat]
    split
    next => simp
    next =>
      rw [← known.last]
      -- What was in the index leads to the same entry of the longer table.
      cases found : index[offset]? with
      | none => rfl
      | some position => exact List.getElem?_append_left (known.within found)

theorem foldl (known : Indexes index functions) (rest : List FunctionEntry) :
    Indexes ((rest.zipIdx functions.length).foldl indexEntry index) (functions ++ rest) := by
  -- The table that is indexed already grows with every entry, and positions go on from its length.
  induction rest generalizing index functions with
  | nil =>
      rw [List.append_nil]
      exact known
  | cons entry rest ih =>
      have filled := ih (known.concat entry)
      rw [List.length_append, List.length_singleton, List.append_assoc] at filled
      exact filled

end Indexes

theorem indexes_functionIndex (functions : List FunctionEntry) :
    Indexes (functionIndex functions) functions :=
  Indexes.empty.foldl functions

theorem functionAt_eq (image : Image) (offset : Nat) :
    image.program.functionAt offset =
      (startingAt image.sections.functions offset).getLast?.map (·.name) := by
  rw [← (indexes_functionIndex image.sections.functions).last, Option.map_bind]
  simp only [program, List.getElem?_toArray]
  rfl

end Image

open FunctionEntry in
/-- The name found at an offset is that of the last entry of the function table that starts there,
and no name is found exactly if no entry does. Entries with a negative start might as well not be
in the table. -/
theorem functionAt_finds_last_entry (image : Image) (offset : Nat) :
    image.program.functionAt offset =
      (startingAt image.sections.functions offset).getLast?.map (·.name) ∧
    (image.program.functionAt offset = none ↔
      ∀ entry ∈ image.sections.functions, entry.start.toInt ≠ offset) ∧
    { image with
      sections.functions := image.sections.functions.filter (0 ≤ ·.start.toInt)
      }.program.functionAt offset = image.program.functionAt offset := by
  refine ⟨image.functionAt_eq offset, ?_, ?_⟩
  · rw [Image.functionAt_eq, Option.map_eq_none_iff, List.getLast?_eq_none_iff]
    exact startingAt_eq_nil_iff image.sections.functions offset
  · rw [Image.functionAt_eq, Image.functionAt_eq, startingAt_filter_nonneg]

end ThreadedCode
