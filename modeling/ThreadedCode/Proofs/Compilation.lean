import ThreadedCode.Proofs.Definitions
import ThreadedCode.Proofs.UnitText

/-!
# The cases of a compilation

A compilation with valid settings ends in one of four ways: there is no entry jump, decoding finds
something wrong, a body cannot be written, or the unit is complete. Each case has its result spelled
out here, and none of them is a failure: the bodies are always well nested on their page, and there
are as many of them as declared blocks.
-/

namespace ThreadedCode

namespace Part

theorem endsLine_text (settings : Settings) (part : Part) : Page.EndsLine (part.text settings) := by
  cases part with
  | label name => exact Item.labelText_endsLine name
  | definition content => exact Page.EndsLine.after (by decide) (by decide) _

end Part

namespace Bodies

/-- The text of all parts. -/
def partsText (settings : Settings) (items : List Item) : String :=
  String.join ((parts false items).map (Part.text settings))

theorem endsLine_partsText (settings : Settings) (items : List Item) :
    Page.EndsLine (partsText settings items) := by
  apply Page.endsLine_join
  intro text member
  obtain ⟨part, -, rfl⟩ := List.mem_map.mp member
  exact part.endsLine_text settings

section Generation

variable (settings : Settings) (program : Program) (arena : Arena)

/-- The items of a program are in place, for any arena, and close every body if there is one for
every instruction. -/
theorem items_nesting :
    ∃ inside, nesting false (items settings program arena).emitted = some inside ∧
      ∀ count, (items settings program arena).outcome = .ok count → inside = false :=
  walk_nesting (Listing.decodes_ofCode program.code) (ready_none program arena _) 0

/-- Once the items are printed, nothing is emitted any more. -/
theorem generateOn_of_printed {page behind : Page}
    (printed : (Item.printAll settings page (items settings program arena).emitted).outcome =
      .ok behind) :
    generateOn page settings program arena =
      ⟨(Item.printAll settings page (items settings program arena).emitted).emitted,
        ((items settings program arena).outcome.mapError Failure.corrupt).map (fun count =>
          (count, behind))⟩ := by
  have mapped : ((Item.printAll settings page
      (items settings program arena).emitted).mapError Failure.page).outcome = .ok behind := by
    rw [Trace.mapError, printed]
    rfl
  rw [generateOn, Trace.bind_of_ok mapped]
  cases (items settings program arena).outcome with
  | error cause => exact congrArg (Trace.mk · _) (List.append_nil _)
  | ok count => exact congrArg (Trace.mk · _) (List.append_nil _)

/-- Writing the bodies never misuses the page, and fails only where the items do. If it does not
fail, it has written the text of all items as the page takes it, and has closed all bodies. -/
theorem generateOn_eq (page : Page) :
    ∃ behind, (generateOn page settings program arena).outcome =
        ((items settings program arena).outcome.mapError Failure.corrupt).map (fun count =>
          (count, behind)) ∧
      ∀ count, (items settings program arena).outcome = .ok count →
        behind.depth = page.depth ∧
          Event.textOf (generateOn page settings program arena).emitted =
            Page.inlineText page.depth page.midLine
              (text settings false (items settings program arena).emitted) := by
  obtain ⟨inside, nested, closed⟩ := items_nesting settings program arena
  have place : Item.At page.depth page false := ⟨rfl, nofun⟩
  obtain ⟨⟨behind, printed, place⟩, written⟩ := printAll_nested settings place nested
  rw [generateOn_of_printed settings program arena printed]
  refine ⟨behind, rfl, fun count finished => ?_⟩
  cases closed count finished
  exact ⟨place.1, written⟩

/-- On a page of their own the bodies are the text of all parts. -/
theorem generate_eq :
    ∃ page, (generate settings program arena).outcome =
        ((items settings program arena).outcome.mapError Failure.corrupt).map (fun count =>
          (count, page)) ∧
      ∀ count, (items settings program arena).outcome = .ok count →
        page.depth = 0 ∧ Event.textOf (generate settings program arena).emitted =
          partsText settings (items settings program arena).emitted := by
  obtain ⟨page, generated, written⟩ := generateOn_eq settings program arena .blank
  refine ⟨page, generated, fun count finished => ?_⟩
  obtain ⟨inside, nested, closed⟩ := items_nesting settings program arena
  cases closed count finished
  obtain ⟨depth, same⟩ := written count finished
  exact ⟨depth, same.trans ((Page.indentText_zero _).trans (text_eq_parts settings nested))⟩

end Generation

end Bodies

namespace SourceUnit

variable {settings : Settings} {program : Program} {arena : Arena}

/-- The unit of a corrupt program. -/
def corruptUnit (settings : Settings) (arena : Arena) (corruption : Corruption) : Compilation :=
  ⟨preambleText settings ++ declarationsText settings arena.offsets ++ diagnosisText corruption,
    arena.size, some corruption⟩

/-- The unit of a program with the given bodies. -/
def wholeUnit (settings : Settings) (program : Program) (arena : Arena) (start : Nat) :
    Compilation :=
  ⟨preambleText settings ++ declarationsText settings arena.offsets
    ++ ("\n" ++ Bodies.partsText settings (Bodies.items settings program arena).emitted)
    ++ tableText settings (LittleEndian.words program.raw) ++ entryText settings start,
    arena.size, none⟩

/-- The text of a whole unit, part by part. -/
theorem source_wholeUnit (settings : Settings) (program : Program) (start : Nat) :
    (wholeUnit settings program program.scan.arena start).source =
      preambleText settings ++ declarationsText settings program.scan.arena.offsets ++ "\n"
        ++ String.join ((program.parts settings).map (Part.text settings))
        ++ tableText settings (LittleEndian.words program.raw) ++ entryText settings start := by
  simp only [wholeUnit, Bodies.partsText, Program.parts, String.append_assoc]

theorem ofScan_of_error {cause : Corruption}
    (failed : (Bodies.items settings program arena).outcome = .error cause) (start : Nat) :
    (ofScan settings program arena start).outcome = .ok (corruptUnit settings arena cause) := by
  obtain ⟨page, generated, -⟩ := Bodies.generate_eq settings program arena
  rw [failed] at generated
  have corrupt : (Bodies.generate settings program arena).outcome = .error (.corrupt cause) :=
    generated
  simp only [ofScan, corrupt, Trace.outcome_bind, Trace.outcome_emitAll, Trace.outcome_emit,
    pure_bind, Trace.outcome_ofExcept]
  exact cutShort_eq settings arena cause

theorem ofScan_of_ok (valid : settings.invalidName? = none)
    (finished : (Bodies.items settings program arena).outcome = .ok arena.size) (start : Nat) :
    ofScan settings program arena start =
      ⟨Event.noticesOf (Bodies.generate settings program arena).emitted
          ++ [.embedding (LittleEndian.words program.raw).length, .compiled arena.size start],
        .ok (wholeUnit settings program arena start)⟩ := by
  obtain ⟨page, generated, written⟩ := Bodies.generate_eq settings program arena
  obtain ⟨depth, text⟩ := written _ finished
  rw [finished] at generated
  have ok : (Bodies.generate settings program arena).outcome = .ok (arena.size, page) := generated
  have checked : checkBodies arena arena.size page = .ok () := by
    simp [checkBodies, Page.finish, depth]
    rfl
  have whole := complete_eq valid arena
    (Bodies.endsLine_partsText settings (Bodies.items settings program arena).emitted)
    (LittleEndian.words program.raw) start
  simp only [ofScan, ok, checked, text, whole, Trace.emitAll, Trace.emit, Trace.ofExcept,
    Trace.bind_ok, Trace.pure_eq]
  rfl

end SourceUnit

section Cases

variable {settings : Settings} {program : Program} {start : Nat}

theorem compile_of_invalid {name : String} (invalid : settings.invalidName? = some name) :
    (compile settings program).outcome = .error (.invalidIdentifier name) := by
  simp only [compile, invalid]
  rfl

/-- Settings that a program was compiled with are valid. -/
theorem valid_of_compile {compilation : Compilation}
    (compiled : (compile settings program).outcome = .ok compilation) :
    settings.invalidName? = none := by
  cases invalid : settings.invalidName? with
  | none => rfl
  | some name =>
      rw [compile_of_invalid invalid] at compiled
      cases compiled

/-- Without an entry jump there are no blocks. -/
theorem compile_of_no_entry (valid : settings.invalidName? = none)
    (missing : Scan.entry? program.code = none) :
    (compile settings program).outcome =
      .ok (SourceUnit.corruptUnit settings program.scan.arena .missingEntryJump) := by
  have scan : (Scan.ofProgram program).1 = _ := Program.scan_of_no_entry missing
  simp only [compile, valid, scan, Program.scan, Trace.outcome_bind, Trace.outcome_emitAll,
    pure_bind, Trace.outcome_ofExcept]
  exact SourceUnit.cutShort_eq settings _ _

/-- What is wrong with an instruction ends the unit after the blocks found so far. -/
theorem compile_of_fault (valid : settings.invalidName? = none)
    (entry : Scan.entry? program.code = some start) {cause : Corruption}
    (corrupt : (Listing.ofCode program.code).ending.corruption? = some cause) :
    (compile settings program).outcome =
      .ok (SourceUnit.corruptUnit settings program.scan.arena cause) := by
  have scan : (Scan.ofProgram program).1 = _ := Program.scan_of_entry entry
  simp only [compile, valid, scan, Program.scan, corrupt, Trace.outcome_bind,
    Trace.outcome_emitAll, pure_bind, Trace.outcome_ofExcept]
  exact SourceUnit.cutShort_eq settings _ _

theorem compile_of_clean (valid : settings.invalidName? = none) (clean : program.Clean start) :
    compile settings program =
      ⟨(Scan.ofProgram program).2
          ++ (SourceUnit.ofScan settings program program.scan.arena start).emitted,
        (SourceUnit.ofScan settings program program.scan.arena start).outcome⟩ := by
  have scan : (Scan.ofProgram program).1 = _ := Program.scan_of_entry clean.entry
  have whole : (Listing.ofCode program.code).ending.corruption? = none := by
    rw [clean.complete]
    rfl
  simp only [compile, valid, scan, Program.scan, whole, Trace.emitAll, Trace.bind_ok]

/-- The bodies of a clean program are those of all its instructions. -/
theorem Program.Clean.items_eq (clean : program.Clean start) :
    Bodies.items settings program program.scan.arena =
      Bodies.walk settings program program.scan.arena .complete none 0 program.instructions := by
  rw [← clean.complete]
  rfl

/-- After a clean scan there are as many bodies as blocks. -/
theorem Program.Clean.bodies_eq (clean : program.Clean start) {count : Nat}
    (finished : (Bodies.items settings program program.scan.arena).outcome = .ok count) :
    Bodies.opened (Bodies.items settings program program.scan.arena).emitted =
        program.scan.arena.offsets ∧
      count = program.scan.arena.size := by
  have walked := Bodies.walk_opened (Listing.decodes_ofCode program.code) finished
  have blocks : ((Listing.ofCode program.code).instructions.map Instruction.offset).filter
      program.scan.arena.contains = program.scan.arena.offsets := clean.filter_contains
  rw [blocks, Arena.length_offsets, Nat.zero_add] at walked
  exact walked

/-- The bodies of a program whose scan is clean define its blocks in order. -/
theorem Program.Clean.definitions_blocks (clean : program.Clean start) {count : Nat}
    (finished : (Bodies.items settings program program.scan.arena).outcome = .ok count) :
    (program.definitions settings).map Definition.block = program.scan.arena.offsets := by
  rw [← (clean.bodies_eq finished).1, Program.definitions, Program.parts, Bodies.parts_definitions]
  exact Bodies.definitions_blocks _

/-- A body that cannot be written ends the unit after the declarations. -/
theorem compile_of_unwritten (valid : settings.invalidName? = none) (clean : program.Clean start)
    {cause : Corruption}
    (failed : (Bodies.items settings program program.scan.arena).outcome = .error cause) :
    (compile settings program).outcome =
      .ok (SourceUnit.corruptUnit settings program.scan.arena cause) := by
  rw [compile_of_clean valid clean, SourceUnit.ofScan_of_error failed]

/-- If all bodies can be written, the unit is whole. -/
theorem compile_of_written (valid : settings.invalidName? = none) (clean : program.Clean start)
    {count : Nat}
    (finished : (Bodies.items settings program program.scan.arena).outcome = .ok count) :
    (compile settings program).outcome =
      .ok (SourceUnit.wholeUnit settings program program.scan.arena start) := by
  rw [(clean.bodies_eq finished).2] at finished
  rw [compile_of_clean valid clean, SourceUnit.ofScan_of_ok valid finished]

/-- A compilation with valid settings gives the unit of a corrupt program or a whole unit. -/
theorem compile_cases (valid : settings.invalidName? = none) (program : Program) :
    (∃ cause, (compile settings program).outcome =
      .ok (SourceUnit.corruptUnit settings program.scan.arena cause)) ∨
    ∃ start count, program.Clean start ∧
      (Bodies.items settings program program.scan.arena).outcome = .ok count ∧
      (compile settings program).outcome =
        .ok (SourceUnit.wholeUnit settings program program.scan.arena start) := by
  cases entry : Scan.entry? program.code with
  | none => exact Or.inl ⟨_, compile_of_no_entry valid entry⟩
  | some start =>
      cases corrupt : (Listing.ofCode program.code).ending.corruption? with
      | some cause => exact Or.inl ⟨_, compile_of_fault valid entry corrupt⟩
      | none =>
          have clean : program.Clean start := ⟨entry, Ending.eq_complete corrupt⟩
          cases written : (Bodies.items settings program program.scan.arena).outcome with
          | error cause => exact Or.inl ⟨_, compile_of_unwritten valid clean written⟩
          | ok count =>
              exact Or.inr ⟨start, count, clean, rfl, compile_of_written valid clean written⟩

/-- A usable unit is whole: the settings are valid, the scan is clean and all bodies are written. -/
theorem exists_clean_of_usable {compilation : Compilation}
    (compiled : (compile settings program).outcome = .ok compilation)
    (usable : compilation.isUsable = true) :
    settings.invalidName? = none ∧
      ∃ start count, program.Clean start ∧
        (Bodies.items settings program program.scan.arena).outcome = .ok count ∧
        compilation = SourceUnit.wholeUnit settings program program.scan.arena start := by
  cases valid : settings.invalidName? with
  | some name =>
      rw [compile_of_invalid valid] at compiled
      cases compiled
  | none =>
      rcases compile_cases valid program with ⟨cause, cut⟩ | ⟨start, count, clean, written, whole⟩
      · rw [cut] at compiled
        cases compiled
        cases usable
      · rw [whole] at compiled
        cases compiled
        exact ⟨rfl, start, count, clean, written, rfl⟩

end Cases

theorem Settings.default_valid : ({} : Settings).invalidName? = none := by decide

/-- A block that pushes 7, runs a loop and jumps back to itself on failure, and a block that
exits. -/
def countingLoop : Program :=
  .bare #[90, 2, 0, 7, 85, 91, 2, 98] (fun offset => offset == 2 || offset == 7) []

theorem countingLoop_clean : countingLoop.Clean 2 := ⟨by decide, by cbv⟩

theorem countingLoop_offsets : countingLoop.scan.arena.offsets = [2, 7] := by cbv

theorem countingLoop_written :
    (Bodies.items {} countingLoop countingLoop.scan.arena).outcome = .ok 2 := by cbv

end ThreadedCode
