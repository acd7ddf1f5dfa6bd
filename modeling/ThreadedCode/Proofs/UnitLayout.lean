import ThreadedCode.Proofs.BodyText

/-!
# The layout of a unit

A unit declares every block that the scan found on a line of its own, in ascending order and under
different names. A whole unit defines exactly these blocks, in the same order, and so does the text
of its bodies if the names that it shows stay inside of their comments. A unit that is not whole
ends with a one-line diagnosis after the declarations, wherever the fault was found.
-/

namespace ThreadedCode

namespace Settings

/-- A declaration is one line. -/
theorem newline_not_mem_signature {settings : Settings} (valid : settings.invalidName? = none)
    (block : Nat) : '\n' ∉ (settings.signature block).toList := by
  have outside : Identifier.isContinue '\n' = false := by decide
  have path := Identifier.not_mem_of_isPath (invalidName?_eq_none_iff.mp valid).1 outside
    (by decide)
  have type := not_mem_name valid outside
    (show settings.contextType ∈ settings.identifiers by simp [identifiers])
  have parameter := not_mem_name valid outside
    (show settings.contextParam ∈ settings.identifiers by simp [identifiers])
  have name := not_mem_blockName valid outside block
  unfold signature qualifiedContextType qualified
  simp only [String.toList_append, List.mem_append, not_or]
  exact ⟨⟨⟨⟨⟨⟨by simp, name⟩, by simp⟩, ⟨path, by simp⟩, type⟩, by simp⟩, parameter⟩, by simp⟩

end Settings

/-- A diagnosis is one line. -/
theorem Corruption.newline_not_mem_message (corruption : Corruption) :
    '\n' ∉ corruption.message.toList := by
  have outside : Identifier.isContinue '\n' = false := by decide
  unfold message
  cases corruption with
  | missingEntryJump => simp
  | badOpcode offset value => exact value.not_mem_text outside (by decide)
  | truncated offset =>
      simp only [String.toList_append, List.mem_append, not_or]
      exact ⟨by simp, not_mem_repr outside offset⟩
  | badOperand offset value =>
      simp only [String.toList_append, List.mem_append, not_or]
      have bad := value.not_mem_text outside (by decide)
      exact ⟨⟨⟨by simp, bad⟩, by simp⟩, not_mem_repr outside offset⟩

open SourceUnit in
/-- The layout of every unit, for valid settings. -/
theorem compile_layout (settings : Settings) (program : Program)
    (valid : settings.invalidName? = none) :
    ∃ compilation, (compile settings program).outcome = .ok compilation ∧
      let blocks := program.scan.arena.offsets
      blocks.Pairwise (· < ·) ∧
      (blocks.map settings.blockName).Nodup ∧
      compilation.blocks = blocks.length ∧
      (∀ block, '\n' ∉ (settings.signature block).toList) ∧
      (compilation.isUsable = true →
        (program.definitions settings).map Definition.block = blocks ∧
        (program.NamesInside → ∃ routines,
          Routine.readAll? settings
              (String.join ((program.parts settings).map (Part.text settings))) =
            some routines ∧
          routines.map Routine.name = blocks.map settings.blockName) ∧
        ∃ start, program.code[1]?.bind Word.index? = some start ∧
          compilation.source =
            preambleText settings ++ declarationsText settings blocks ++ "\n"
              ++ String.join ((program.parts settings).map (Part.text settings))
              ++ tableText settings (LittleEndian.words program.raw)
              ++ entryText settings start) ∧
      (compilation.isUsable = false →
        ∃ corruption, compilation.corruption? = some corruption ∧
          '\n' ∉ corruption.message.toList ∧
          compilation.source =
            preambleText settings ++ declarationsText settings blocks
              ++ ("// Corrupt bytecode starts here: " ++ corruption.message ++ "\n")) := by
  have ascending := program.offsets_ascending
  have distinct : (program.scan.arena.offsets.map settings.blockName).Nodup := by
    refine List.Pairwise.map _ (fun block other before same => ?_) ascending
    exact absurd (Settings.blockName_injective same) (Nat.ne_of_lt before)
  have counted : program.scan.arena.size = program.scan.arena.offsets.length :=
    (Arena.length_offsets _).symm
  have declared := fun block => Settings.newline_not_mem_signature valid block
  rcases compile_cases valid program with
    ⟨cause, compiled⟩ | ⟨start, count, clean, written, compiled⟩
  · refine ⟨_, compiled, ascending, distinct, counted, declared, nofun, fun _ => ?_⟩
    exact ⟨cause, rfl, cause.newline_not_mem_message, rfl⟩
  · refine ⟨_, compiled, ascending, distinct, counted, declared, fun _ => ?_, nofun⟩
    have blocks := clean.definitions_blocks written
    refine ⟨blocks, fun inside => ?_, start, (Scan.entry?_eq_some_iff.mp clean.entry).2,
      source_wholeUnit settings program start⟩
    refine ⟨_, clean.readAll?_bodies inside written valid, ?_⟩
    rw [← blocks, List.map_map, List.map_map]
    rfl

open SourceUnit in
theorem compile_layout_countingLoop :
    ∃ compilation, (compile {} countingLoop).outcome = .ok compilation ∧
      compilation.isUsable = true ∧ compilation.blocks = 2 ∧
      (countingLoop.definitions {}).map Definition.block = [2, 7] ∧
      (∃ routines,
        Routine.readAll? {} (String.join ((countingLoop.parts {}).map (Part.text {}))) =
          some routines ∧
        routines.map Routine.name = [2, 7].map ({} : Settings).blockName) ∧
      ∃ start, countingLoop.code[1]?.bind Word.index? = some start ∧
        compilation.source =
          preambleText {} ++ declarationsText {} [2, 7] ++ "\n"
            ++ String.join ((countingLoop.parts {}).map (Part.text {}))
            ++ tableText {} (LittleEndian.words countingLoop.raw) ++ entryText {} start := by
  have valid := Settings.default_valid
  have whole := compile_of_written valid countingLoop_clean countingLoop_written
  obtain ⟨compilation, compiled, layout⟩ := compile_layout {} countingLoop valid
  rw [countingLoop_offsets] at layout
  obtain ⟨-, -, counted, -, usable, -⟩ := layout
  rw [compiled] at whole
  cases whole
  obtain ⟨defined, read, placed⟩ := usable rfl
  exact ⟨_, compiled, rfl, counted, defined, read (Program.namesInside_bare _ _ _), placed⟩

/-- The name of the function goes on with a definition of the block that it starts in. -/
def defining : String := "f\nstatic void *block2(lobster::VM &vm) \x7b\n    return nullptr;\n\x7d"

/-- A block that begins with a function. -/
def definingName : Program :=
  { Program.bare #[90, 2, 76, 0, 0, 0, 98] (· == 2) [] with
    functionAt := fun offset => if offset = 2 then some defining else none }

/-- The name of a function leaves its comment and defines a block that is defined behind it. -/
theorem bodies_define_twice_definingName :
    ∃ compilation, (compile {} definingName).outcome = .ok compilation ∧
      compilation.isUsable = true ∧ definingName.scan.arena.offsets = [2] ∧
      ∃ routines,
        Routine.readAll? {} (String.join ((definingName.parts {}).map (Part.text {}))) =
          some routines ∧
        routines.map Routine.name = [2, 2].map ({} : Settings).blockName := by
  have clean : definingName.Clean 2 := ⟨by decide, by cbv⟩
  have written : (Bodies.items {} definingName definingName.scan.arena).outcome = .ok 1 := by cbv
  have offsets : definingName.scan.arena.offsets = [2] := by cbv
  have parts : definingName.parts {} = [.label (some defining),
      .definition ⟨2, [.statement (.call ⟨.funStart, [0, 0, 0], none, none, none, .stay⟩),
        .statement (.call ⟨.exit, [], none, none, none, .stay⟩), .statement .halt]⟩] := by cbv
  have label : Part.text {} (.label (some defining)) =
      Part.text {} (.label (some "f"))
        ++ Part.text {} (.definition ⟨2, [.statement .halt]⟩) := by decide
  have text (rest : List Part) :
      String.join ((.label (some defining) :: rest).map (Part.text {})) =
        String.join ((.label (some "f") :: .definition ⟨2, [.statement .halt]⟩ :: rest).map
          (Part.text {})) := by
    simp only [List.map_cons, String.join_cons, label, String.append_assoc]
  refine ⟨_, compile_of_written Settings.default_valid clean written, rfl, offsets, ?_⟩
  rw [parts, text]
  refine ⟨_, readAll?_parts Settings.default_valid ?_, rfl⟩
  simp only [List.forall_mem_cons, Part.Readable]
  exact ⟨BodyLine.readable_label (by decide), ⟨⟨trivial, trivial⟩, List.forall_mem_nil _⟩,
    ⟨BodyLine.readable_unnoted rfl, BodyLine.readable_unnoted rfl, ⟨trivial, trivial⟩,
      List.forall_mem_nil _⟩, List.forall_mem_nil _⟩

end ThreadedCode
