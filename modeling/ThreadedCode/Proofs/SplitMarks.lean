import ThreadedCode.Image.Basic

/-!
# Marking block starts

Marking block starts adds the given offsets to those that are marked already, and the attributes
grow just as far as the last mark needs. Attributes are known by their number and their marks, so
neither the order of the offsets nor how often one is given makes a difference.
-/

namespace ThreadedCode

namespace Attributes

/-- Is a block start marked at the offset? -/
def marksAt (attributes : List Attributes) (offset : Nat) : Bool :=
  (attributes[offset]?.getD .empty).split

/-- Attributes are known by how many there are and where the marks are. -/
theorem eq_of_marksAt {attributes others : List Attributes}
    (length : attributes.length = others.length)
    (same : ∀ offset, marksAt attributes offset = true ↔ marksAt others offset = true) :
    attributes = others := by
  apply List.ext_getElem length
  intro offset here there
  have marks : marksAt attributes offset = marksAt others offset :=
    Bool.eq_iff_iff.mpr (same offset)
  unfold marksAt at marks
  rw [List.getElem?_eq_getElem here, List.getElem?_eq_getElem there] at marks
  exact congrArg Attributes.mk marks

end Attributes

namespace Sections

open Attributes (marksAt)

section OneMark

variable (attributes : List Attributes) (offset : Nat)

/-- The attributes reach up to the mark, and no further than they did or have to. -/
theorem length_markSplit :
    (markSplit attributes offset).length = max attributes.length (offset + 1) := by
  simp only [markSplit, List.length_set, List.length_append, List.length_replicate]
  omega

theorem getElem?_grown (other : Nat) :
    ((attributes ++ List.replicate (offset + 1 - attributes.length) Attributes.empty)[other]?.getD
      .empty) = attributes[other]?.getD .empty := by
  by_cases inside : other < attributes.length
  · rw [List.getElem?_append_left inside]
  · rw [List.getElem?_append_right (Nat.le_of_not_lt inside), List.getElem?_replicate,
      List.getElem?_eq_none (Nat.le_of_not_lt inside)]
    split <;> rfl

theorem marksAt_markSplit (other : Nat) :
    marksAt (markSplit attributes offset) other = true ↔
      marksAt attributes other = true ∨ other = offset := by
  by_cases same : other = offset
  · have long : offset < (markSplit attributes offset).length := by
      rw [length_markSplit]
      omega
    have marked : marksAt (markSplit attributes offset) offset = true := by
      rw [marksAt, List.getElem?_eq_getElem long]
      simp [markSplit]
    rw [same]
    exact ⟨fun _ => Or.inr rfl, fun _ => marked⟩
  · have kept : marksAt (markSplit attributes offset) other = marksAt attributes other := by
      unfold marksAt markSplit
      rw [List.getElem?_set_ne (Ne.symm same), getElem?_grown]
    rw [kept]
    exact ⟨Or.inl, fun marked => marked.resolve_right same⟩

end OneMark

section AllMarks

variable (attributes : List Attributes) (offsets : List Nat)

theorem marksAt_foldl (offset : Nat) :
    marksAt (offsets.foldl markSplit attributes) offset = true ↔
      marksAt attributes offset = true ∨ offset ∈ offsets := by
  induction offsets generalizing attributes with
  | nil => simp
  | cons first rest ih =>
      rw [List.foldl_cons, ih, marksAt_markSplit, List.mem_cons, or_assoc]

theorem length_foldl_le (bound : Nat) :
    (offsets.foldl markSplit attributes).length ≤ bound ↔
      attributes.length ≤ bound ∧ ∀ offset ∈ offsets, offset + 1 ≤ bound := by
  induction offsets generalizing attributes with
  | nil => simp
  | cons first rest ih =>
      rw [List.foldl_cons, ih, length_markSplit, Nat.max_le, List.forall_mem_cons, and_assoc]

/-- All that matters of the offsets is which they are. -/
theorem foldl_markSplit_congr {offsets others : List Nat}
    (same : ∀ offset, offset ∈ others ↔ offset ∈ offsets) :
    others.foldl markSplit attributes = offsets.foldl markSplit attributes := by
  apply Attributes.eq_of_marksAt
  · have bounds : ∀ bound, (others.foldl markSplit attributes).length ≤ bound ↔
        (offsets.foldl markSplit attributes).length ≤ bound := by
      intro bound
      simp only [length_foldl_le, same]
    exact Nat.le_antisymm ((bounds _).mpr (Nat.le_refl _)) ((bounds _).mp (Nat.le_refl _))
  · intro offset
    rw [marksAt_foldl, marksAt_foldl, same]

/-- The attributes reach up to the last mark, if they did not reach further before. -/
theorem length_foldl_markSplit :
    (offsets.foldl markSplit attributes).length =
      offsets.max?.elim attributes.length fun last => max attributes.length (last + 1) := by
  have bounds := length_foldl_le attributes offsets
  cases largest : offsets.max? with
  | none =>
      rw [List.max?_eq_none_iff.mp largest]
      rfl
  | some last =>
      obtain ⟨listed, above⟩ := List.max?_eq_some_iff.mp largest
      apply Nat.le_antisymm
      · apply (bounds _).mpr
        refine ⟨Nat.le_max_left _ _, fun offset member => ?_⟩
        exact Nat.le_trans (Nat.succ_le_succ (above offset member)) (Nat.le_max_right _ _)
      · obtain ⟨old, marks⟩ := (bounds _).mp (Nat.le_refl _)
        exact Nat.max_le.mpr ⟨old, marks last listed⟩

end AllMarks

end Sections

theorem Image.startsBlock_ofSections (sections : Sections) (offset : Nat) :
    (ofSections sections).program.startsBlock offset =
      Attributes.marksAt sections.attributes offset := by
  simp [Program.startsBlock, program, ofSections, Attributes.marksAt]

open Sections in
/-- Blocks start at the given offsets and where they started before. The attributes grow just up to
the last of the offsets, and the other sections stay. Other offsets with the same members, in any
order and however often, mark the same, and so do two calls one after the other. -/
theorem splitAt_adds_block_starts (sections : Sections) (offsets : List Nat) :
    (∀ offset,
      (Image.ofSections (sections.splitAt offsets)).program.startsBlock offset = true ↔
        (Image.ofSections sections).program.startsBlock offset = true ∨ offset ∈ offsets) ∧
    (sections.splitAt offsets).attributes.length =
      offsets.max?.elim sections.attributes.length
        (fun last => max sections.attributes.length (last + 1)) ∧
    { sections.splitAt offsets with attributes := sections.attributes } = sections ∧
    (∀ others, (∀ offset, offset ∈ others ↔ offset ∈ offsets) →
      sections.splitAt others = sections.splitAt offsets) ∧
    ∀ more, (sections.splitAt offsets).splitAt more = sections.splitAt (offsets ++ more) := by
  refine ⟨fun offset => ?_, length_foldl_markSplit _ _, rfl, fun others same => ?_, fun more => ?_⟩
  · rw [Image.startsBlock_ofSections, Image.startsBlock_ofSections]
    exact marksAt_foldl sections.attributes offsets offset
  · unfold splitAt
    rw [foldl_markSplit_congr sections.attributes same]
  · unfold splitAt
    rw [List.foldl_append]

/-- Block starts that are given twice and out of order. -/
theorem splitAt_adds_block_starts_disorder :
    let sections : Sections := { code := [90, 2, 98, 98], attributes := [⟨false⟩, ⟨true⟩] }
    (∀ offset, offset ∈ [2, 3] ↔ offset ∈ [3, 2, 3]) ∧
      sections.splitAt [2, 3] = sections.splitAt [3, 2, 3] ∧
      (sections.splitAt [3, 2, 3]).attributes = [⟨false⟩, ⟨true⟩, ⟨true⟩, ⟨true⟩] := by
  have same : ∀ offset, offset ∈ [2, 3] ↔ offset ∈ [3, 2, 3] := by
    intro offset
    simp only [List.mem_cons, List.not_mem_nil, or_false]
    omega
  obtain ⟨-, -, -, unordered, -⟩ := splitAt_adds_block_starts
    { code := [90, 2, 98, 98], attributes := [⟨false⟩, ⟨true⟩] } [3, 2, 3]
  exact ⟨same, unordered [2, 3] same, rfl⟩

end ThreadedCode
