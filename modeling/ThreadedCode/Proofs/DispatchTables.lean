import ThreadedCode.Proofs.EmbeddedTable
import ThreadedCode.Proofs.Verdict

/-!
# Dispatch tables

The operands of a dispatch table are the numbers of its cases and of their arguments, and then, case
by case, a tag for each argument and the block of the case. Cutting the words of the cases apart
comes out even, and the block of every case is read from the last word of its group, whatever the
tags are. So nothing but a negative block can be wrong with a table that was resolved, and the first
one is what is reported.
-/

namespace ThreadedCode

theorem except_mapM_of_ok {ε α β : Type} {f : α → Except ε β} {g : α → β} {items : List α}
    (each : ∀ item ∈ items, f item = .ok (g item)) : items.mapM f = .ok (items.map g) := by
  rw [except_mapM_congr each]
  exact List.mapM_pure ..

/-- Words that fill all their rows are cut at the multiples of the width. -/
theorem SourceUnit.rows_of_length {width : Nat} (wide : 0 < width) {count : Nat}
    {words : List Word} (filled : words.length = width * count) :
    rows width words =
      (List.range count).map fun row => (words.drop (width * row)).take width := by
  induction count generalizing words with
  | zero =>
      rw [List.eq_nil_of_length_eq_zero filled, rows]
      rfl
  | succ count ih =>
      rw [Nat.mul_succ] at filled
      have some : ¬words.isEmpty = true := by
        rw [List.isEmpty_iff_length_eq_zero]
        omega
      have behind : (words.drop width).length = width * count := by
        rw [List.length_drop]
        omega
      rw [rows, if_neg some, Nat.max_eq_left wide, ih behind, List.range_succ_eq_map,
        List.map_cons, List.map_map]
      congr 1
      apply List.map_congr_left
      intro row _
      rw [Function.comp_apply, List.drop_drop, Nat.mul_succ, Nat.add_comm]

namespace Operands

/-- The cases of a dispatch table: its operands behind the two counts, cut into groups of a tag for
each argument and one word more. -/
def caseGroups (arguments : Nat) (operands : List Word) : List (List Word) :=
  SourceUnit.rows (arguments + 1) (operands.drop 2)

/-- The last words of the cases of a dispatch table. -/
def caseTargets (arguments : Nat) (operands : List Word) : List Word :=
  (caseGroups arguments operands).filterMap List.getLast?

/-- The offset of the last word of a case, for a table whose operands start at the cursor. -/
def caseEnd (cursor arguments case : Nat) : Nat := cursor + 2 + (arguments + 1) * case + arguments

/-- The operands that start at the cursor are those of a dispatch table with the given numbers of
cases and arguments. -/
structure TableAt (code : Array Word) (cursor cases arguments : Nat) (span : Span) : Prop where
  resolved : Opcode.funMulti.resolve code cursor = .ok span
  selected : CountAt code cursor cases
  counted : CountAt code (cursor + 1) arguments
  arity : span.arity = 2 + (arguments + 1) * cases
  inside : cursor + span.arity ≤ code.size

theorem exists_tableAt {code : Array Word} {cursor : Nat} {span : Span}
    (resolved : Opcode.funMulti.resolve code cursor = .ok span) :
    ∃ cases arguments, TableAt code cursor cases arguments span := by
  obtain ⟨start, extent⟩ := Opcode.resolve_eq_ok_iff.mp resolved
  obtain ⟨cases, arguments, selected, counted, arity, next⟩ := extent_funMulti extent
  exact ⟨cases, arguments, resolved, countAt_iff.mpr selected, countAt_iff.mpr counted, arity,
    next ▸ (Opcode.le_of_resolve resolved).2⟩

namespace TableAt

variable {code : Array Word} {cursor cases arguments : Nat} {span : Span}
  (table : TableAt code cursor cases arguments span)

include table

theorem words_getElem? {index : Nat} (reported : index < span.arity) :
    (span.words code)[index]? = code[cursor + index]? :=
  Opcode.words_getElem? table.resolved reported

theorem length_words : (span.words code).length = 2 + (arguments + 1) * cases := by
  have inside := table.inside
  rw [Span.words_eq_take_drop, List.length_take, List.length_drop, Array.length_toList,
    (Opcode.resolve_eq_ok_iff.mp table.resolved).1, ← table.arity]
  omega

theorem caseGroups_eq :
    caseGroups arguments (span.words code) =
      (List.range cases).map fun case =>
        ((span.words code).drop (2 + (arguments + 1) * case)).take (arguments + 1) := by
  have length := table.length_words
  have filled : ((span.words code).drop 2).length = (arguments + 1) * cases := by
    rw [List.length_drop]
    omega
  rw [caseGroups, SourceUnit.rows_of_length (Nat.succ_pos arguments) filled]
  simp only [List.drop_drop]

theorem caseEnd_lt {case : Nat} (listed : case < cases) :
    caseEnd cursor arguments case < code.size := by
  have below : (arguments + 1) * case + arguments < (arguments + 1) * cases :=
    Instruction.case_lt listed
  have inside := table.inside
  have arity := table.arity
  unfold caseEnd
  omega

theorem length_group {case : Nat} (listed : case < cases) :
    (((span.words code).drop (2 + (arguments + 1) * case)).take (arguments + 1)).length =
      arguments + 1 := by
  have below : (arguments + 1) * case + arguments < (arguments + 1) * cases :=
    Instruction.case_lt listed
  rw [List.length_take, List.length_drop, table.length_words]
  omega

/-- The last word of a group stands right before the next group. -/
theorem getLast?_group {case : Nat} (listed : case < cases) :
    (((span.words code).drop (2 + (arguments + 1) * case)).take (arguments + 1)).getLast? =
      code[caseEnd cursor arguments case]? := by
  have below : (arguments + 1) * case + arguments < (arguments + 1) * cases :=
    Instruction.case_lt listed
  have arity := table.arity
  rw [List.getLast?_eq_getElem?, table.length_group listed, Nat.add_sub_cancel,
    List.getElem?_take_of_lt (Nat.lt_succ_self arguments), List.getElem?_drop,
    table.words_getElem? (by omega)]
  congr 1
  unfold caseEnd
  omega

/-- The word at the end of a case. -/
theorem getElem?_caseEnd {case : Nat} (listed : case < cases) :
    code[caseEnd cursor arguments case]? =
      some (code[caseEnd cursor arguments case]?.getD 0) := by
  rw [Array.getElem?_eq_getElem (table.caseEnd_lt listed)]
  rfl

theorem getLast?_caseGroups :
    (caseGroups arguments (span.words code)).map List.getLast? =
      (List.range cases).map fun case => some (code[caseEnd cursor arguments case]?.getD 0) := by
  rw [table.caseGroups_eq, List.map_map]
  apply List.map_congr_left
  intro case listed
  have inside := List.mem_range.mp listed
  rw [Function.comp_apply, table.getLast?_group inside]
  exact table.getElem?_caseEnd inside

theorem caseTargets_eq :
    caseTargets arguments (span.words code) =
      (List.range cases).map fun case => code[caseEnd cursor arguments case]?.getD 0 := by
  have last := table.getLast?_caseGroups
  calc
    caseTargets arguments (span.words code)
        = ((caseGroups arguments (span.words code)).map List.getLast?).filterMap id := by
          rw [List.filterMap_map]
          rfl
    _ = (List.range cases).map fun case => code[caseEnd cursor arguments case]?.getD 0 := by
          rw [last, List.filterMap_map]
          exact congrFun List.filterMap_eq_map' _

/-- Every case is read at its end. -/
theorem outcome_eq (arena : Arena) :
    (Lowering.dispatchTable arena span (span.words code)).outcome =
      (List.range cases).mapM fun case => readCount code (caseEnd cursor arguments case) :=
  Lowering.dispatchTable_of_resolve table.resolved (countAt_iff.mp table.selected)
    (countAt_iff.mp table.counted) table.arity arena

/-- If no case ends with a negative word, all blocks are there, case by case. -/
theorem outcome_of_nonnegative (arena : Arena)
    (nonnegative : ∀ target ∈ caseTargets arguments (span.words code), 0 ≤ target.toInt) :
    (Lowering.dispatchTable arena span (span.words code)).outcome =
      .ok ((caseTargets arguments (span.words code)).map fun target => target.toInt.toNat) := by
  rw [table.caseTargets_eq] at nonnegative ⊢
  rw [table.outcome_eq, List.map_map]
  apply except_mapM_of_ok
  intro case listed
  have inside := List.mem_range.mp listed
  refine readCount_iff.mpr ⟨_, table.getElem?_caseEnd inside, ?_⟩
  exact (Int.toNat_of_nonneg (nonnegative _ (List.mem_map_of_mem listed))).symm

omit table in
theorem nonnegative_of_read {case block : Nat}
    (read : readCount code (caseEnd cursor arguments case) = .ok block) :
    0 ≤ (code[caseEnd cursor arguments case]?.getD 0).toInt := by
  obtain ⟨word, found, value⟩ := readCount_iff.mp read
  rw [found, Option.getD_some, value]
  exact Int.natCast_nonneg block

theorem nonnegative_of_ok {arena : Arena} {blocks : List Nat}
    (found : (Lowering.dispatchTable arena span (span.words code)).outcome = .ok blocks) :
    ∀ target ∈ caseTargets arguments (span.words code), 0 ≤ target.toInt := by
  rw [table.outcome_eq] at found
  rw [table.caseTargets_eq]
  intro target member
  obtain ⟨case, listed, rfl⟩ := List.mem_map.mp member
  obtain ⟨block, read⟩ := except_mapM_eq_ok found listed
  exact nonnegative_of_read read

/-- If the blocks are not all there, it is for the first case that ends with a negative word. -/
theorem negative_of_error {arena : Arena} {cause : Corruption}
    (failed : (Lowering.dispatchTable arena span (span.words code)).outcome = .error cause) :
    ∃ before target after, caseTargets arguments (span.words code) = before ++ target :: after ∧
      (∀ earlier ∈ before, 0 ≤ earlier.toInt) ∧ target.toInt < 0 ∧
      code[caseEnd cursor arguments before.length]? = some target ∧
      cause = .badOperand (caseEnd cursor arguments before.length) target := by
  rw [table.outcome_eq] at failed
  obtain ⟨before, case, after, split, good, bad⟩ := except_mapM_eq_error failed
  -- the cases are counted from zero, so the case is the number of those before it
  have position : case = before.length := by
    have found : (List.range cases)[before.length]? = some case := by
      rw [split, List.getElem?_append_right (Nat.le_refl _), Nat.sub_self, List.getElem?_cons_zero]
    obtain ⟨_, same⟩ := List.getElem?_eq_some_iff.mp found
    rw [← same, List.getElem_range]
  have inside : case < cases := by
    rw [← List.mem_range, split]
    exact List.mem_append_right before List.mem_cons_self
  obtain ⟨target, found, negative, reported⟩ := readCount_eq_error (table.caseEnd_lt inside) bad
  rw [table.caseTargets_eq, split, List.map_append, List.map_cons, found, Option.getD_some]
  refine ⟨_, target, _, rfl, ?_, negative, ?_, ?_⟩
  · intro word member
    obtain ⟨earlier, among, rfl⟩ := List.mem_map.mp member
    obtain ⟨block, read⟩ := good earlier among
    exact nonnegative_of_read read
  · rw [List.length_map, ← position]
    exact found
  · rw [List.length_map, ← position]
    exact reported

end TableAt

end Operands

open Operands

/-- The operands of a resolved dispatch table behind its two counts are cut into as many groups as
there are cases, each of a word for every argument and one word more, with none left over. If no
group ends with a negative word, the table names the blocks at the ends of the groups in order. If
some group does, the first such word is reported with its offset. No table is found too short. -/
theorem dispatchTable_names_case_ends {code : Array Word} {cursor : Nat} {span : Span}
    (resolved : Opcode.funMulti.resolve code cursor = .ok span) (arena : Arena)
    (settings : Settings) :
    ∃ cases arguments : Nat,
      let operands := span.words code
      let groups := caseGroups arguments operands
      let targets := caseTargets arguments operands
      let named := (Lowering.dispatchTable arena span operands).outcome.map
        (List.map settings.blockName)
      operands[0]?.map Int32.toInt = some (cases : Int) ∧
      operands[1]?.map Int32.toInt = some (arguments : Int) ∧
      groups.flatten = operands.drop 2 ∧ groups.length = cases ∧
      (∀ group ∈ groups, group.length = arguments + 1) ∧
      groups.map List.getLast? = targets.map some ∧
      ((∀ target ∈ targets, 0 ≤ target.toInt) →
        named = .ok (targets.map fun target => settings.blockName target.toInt.toNat)) ∧
      ((∃ target ∈ targets, target.toInt < 0) →
        ∃ before target after, targets = before ++ target :: after ∧
          (∀ earlier ∈ before, 0 ≤ earlier.toInt) ∧ target.toInt < 0 ∧
          code[caseEnd cursor arguments before.length]? = some target ∧
          named = .error (.badOperand (caseEnd cursor arguments before.length) target)) ∧
      ∀ offset, named ≠ .error (.truncated offset) := by
  obtain ⟨cases, arguments, table⟩ := exists_tableAt resolved
  have arity := table.arity
  refine ⟨cases, arguments, ?_, ?_, SourceUnit.flatten_rows _ _, ?_, ?_, ?_, ?_, ?_, ?_⟩
  · obtain ⟨word, found, value⟩ := table.selected
    rw [table.words_getElem? (by omega), Nat.add_zero, found, Option.map_some, value]
  · obtain ⟨word, found, value⟩ := table.counted
    rw [table.words_getElem? (by omega), found, Option.map_some, value]
  · rw [table.caseGroups_eq, List.length_map, List.length_range]
  · intro group member
    rw [table.caseGroups_eq] at member
    obtain ⟨case, listed, rfl⟩ := List.mem_map.mp member
    exact table.length_group (List.mem_range.mp listed)
  · rw [table.getLast?_caseGroups, table.caseTargets_eq, List.map_map]
    rfl
  · intro nonnegative
    rw [table.outcome_of_nonnegative arena nonnegative, Except.map, List.map_map]
    rfl
  · rintro ⟨target, member, negative⟩
    cases outcome : (Lowering.dispatchTable arena span (span.words code)).outcome with
    | ok blocks =>
        exact absurd (table.nonnegative_of_ok outcome target member) (Int.not_le.mpr negative)
    | error cause =>
        obtain ⟨before, first, after, split, earlier, below, found, rfl⟩ :=
          table.negative_of_error outcome
        exact ⟨before, first, after, split, earlier, below, found, rfl⟩
  · intro offset
    cases outcome : (Lowering.dispatchTable arena span (span.words code)).outcome with
    | ok blocks => exact nofun
    | error cause =>
        obtain ⟨before, first, after, -, -, -, -, rfl⟩ := table.negative_of_error outcome
        exact nofun

/-- Two dispatch tables of cases with one argument, where all tags are negative. The first table has
two cases, and the second has three, of which the last two end with a negative word. -/
def taggedTables : Array Word := #[78, 2, 1, -5, 9, -6, 10, 78, 3, 1, -5, 9, -6, -1, -7, -2, 98]

theorem dispatchTable_names_case_ends_taggedTables :
    Opcode.funMulti.resolve taggedTables 1 = .ok ⟨1, 7, 6⟩ ∧
      (Lowering.dispatchTable .empty ⟨1, 7, 6⟩ ((⟨1, 7, 6⟩ : Span).words taggedTables)).outcome.map
        (List.map ({} : Settings).blockName) = .ok ["block9", "block10"] ∧
      Opcode.funMulti.resolve taggedTables 8 = .ok ⟨8, 16, 8⟩ ∧
      (Lowering.dispatchTable .empty ⟨8, 16, 8⟩
        ((⟨8, 16, 8⟩ : Span).words taggedTables)).outcome.map
        (List.map ({} : Settings).blockName) = .error (.badOperand 13 (-1)) := by
  have first : Opcode.funMulti.resolve taggedTables 1 = .ok ⟨1, 7, 6⟩ := rfl
  have second : Opcode.funMulti.resolve taggedTables 8 = .ok ⟨8, 16, 8⟩ := rfl
  refine ⟨first, ?_, second, ?_⟩
  · obtain ⟨cases, arguments, -, tagged, -, -, -, -, named, -⟩ :=
      dispatchTable_names_case_ends first .empty {}
    have one : (1 : Int) = arguments := Option.some.inj tagged
    obtain rfl : arguments = 1 := by omega
    have targets : caseTargets 1 ((⟨1, 7, 6⟩ : Span).words taggedTables) = [9, 10] := by
      decide +kernel
    simp only [targets] at named
    exact named (List.forall_mem_cons.mpr ⟨by decide, List.forall_mem_singleton.mpr (by decide)⟩)
  · obtain ⟨cases, arguments, -, tagged, -, -, -, -, -, reported, -⟩ :=
      dispatchTable_names_case_ends second .empty {}
    have one : (1 : Int) = arguments := Option.some.inj tagged
    obtain rfl : arguments = 1 := by omega
    have targets : caseTargets 1 ((⟨8, 16, 8⟩ : Span).words taggedTables) = [9, -1, -2] := by
      decide +kernel
    simp only [targets] at reported
    obtain ⟨before, target, after, split, earlier, below, -, named⟩ := reported ⟨-1, by decide⟩
    rcases before with _ | ⟨sound, _ | ⟨stray, rest⟩⟩
    · cases split
      exact absurd below (by decide)
    · cases split
      exact named
    · have same : stray = -1 := (List.cons.inj (List.cons.inj split).2).1.symm
      exact absurd (earlier stray (by simp)) (same ▸ by decide)

end ThreadedCode
