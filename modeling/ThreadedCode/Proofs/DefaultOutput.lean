import ThreadedCode.Proofs.Canonical
import ThreadedCode.Proofs.CheckedNames
import ThreadedCode.Proofs.StringLiterals
import ThreadedCode.Proofs.WrittenFiles

/-!
# Where the unit goes by default

Without a path for the unit it goes beside the input, under the name of the input with another
extension. Both paths lead into the same directory, so they lead to the same file exactly if the two
names are the same. That is so for an input that has the extension of source code already, and a
successful run then leaves the unit in its place. In all other cases the input stays as it is.
-/

namespace ThreadedCode

namespace Path

theorem splitSlashes_eq (chars : List Char) : splitSlashes chars = chars.splitOn '/' := by
  induction chars with
  | nil => rfl
  | cons char rest ih =>
      rw [List.splitOn_cons_eq_if_modifyHead]
      by_cases slash : char = '/'
      · rw [slash, splitSlashes, ih]
        rfl
      · rw [splitSlashes, ih, if_neg (by simpa using slash)]
        · cases found : rest.splitOn '/' with
          | nil => exact absurd found (List.splitOn_ne_nil _ _)
          | cons segment segments => rfl
        · exact slash

theorem slash_not_mem_of_mem {chars segment : List Char} (listed : segment ∈ chars.splitOn '/') :
    '/' ∉ segment := by
  induction chars generalizing segment with
  | nil =>
      rw [List.splitOn_nil, List.mem_singleton] at listed
      rw [listed]
      exact List.not_mem_nil
  | cons char rest ih =>
      rw [List.splitOn_cons_eq_if_modifyHead] at listed
      by_cases slash : (char == '/') = true
      · rw [if_pos slash] at listed
        rcases List.mem_cons.mp listed with rfl | later
        · exact List.not_mem_nil
        · exact ih later
      · rw [if_neg slash] at listed
        cases found : rest.splitOn '/' with
        | nil => exact absurd found (List.splitOn_ne_nil _ _)
        | cons first others =>
            rw [found] at listed ih
            rcases List.mem_cons.mp listed with rfl | later
            · rw [List.mem_cons, not_or]
              refine ⟨fun same => slash ?_, ih List.mem_cons_self⟩
              rw [← same]
              rfl
            · exact ih (List.mem_cons_of_mem _ later)

theorem slash_not_mem_segment {path segment : String} (listed : segment ∈ segments path) :
    '/' ∉ segment.toList := by
  rw [segments, splitSlashes_eq] at listed
  obtain ⟨chars, member, rfl⟩ := List.mem_map.mp listed
  rw [String.toList_ofList]
  exact slash_not_mem_of_mem member

/-- Segments that are joined by slashes are found again. -/
theorem segments_intercalate {names : List String} (filled : names ≠ [])
    (slashless : ∀ name ∈ names, '/' ∉ name.toList) :
    segments ("/".intercalate names) = names := by
  have found : (['/'].intercalate (names.map String.toList)).splitOn '/' =
      names.map String.toList := by
    apply List.splitOn_intercalate
    · exact List.forall_mem_map.mpr slashless
    · simpa using filled
  calc
    segments ("/".intercalate names)
        = ((['/'].intercalate (names.map String.toList)).splitOn '/').map String.ofList := by
      rw [segments, splitSlashes_eq, String.toList_intercalate]
      rfl
    _ = (names.map String.toList).map String.ofList := by rw [found]
    _ = names := by simp

theorem splitName?_of_isFileName {name : String} (named : IsFileName name)
    (before : List String) : splitName? (name :: before) = some (before, name) := by
  rw [splitName?, if_neg named.1, if_neg named.2.1, if_neg named.2.2]

/-- Behind the file name of a path there is nothing that leads on. -/
theorem exists_trail_of_splitName? {reversed before : List String} {name : String}
    (found : splitName? reversed = some (before, name)) :
    ∃ trail, reversed = trail ++ name :: before ∧ IsFileName name ∧
      ∀ segment ∈ trail, segment = "" ∨ segment = "." := by
  induction reversed with
  | nil => cases found
  | cons segment rest ih =>
      have passed : (segment = "" ∨ segment = ".") → splitName? rest = some (before, name) →
          ∃ trail, segment :: rest = trail ++ name :: before ∧ IsFileName name ∧
            ∀ segment ∈ trail, segment = "" ∨ segment = "." := by
        intro still deeper
        obtain ⟨trail, split, named, all⟩ := ih deeper
        exact ⟨segment :: trail, by rw [split]; rfl, named, List.forall_mem_cons.mpr ⟨still, all⟩⟩
      rw [splitName?] at found
      split at found
      · exact passed (Or.inl ‹_›) found
      · rename_i filled
        split at found
        · split at found
          · cases found
          · exact passed (Or.inr ‹_›) found
        · rename_i noDot
          split at found
          · cases found
          · rename_i noDots
            cases found
            exact ⟨[], rfl, ⟨filled, noDot, noDots⟩, List.forall_mem_nil _⟩

section Extensions

variable {name extension : String}

theorem dropExtension_of_dot {extension front : List Char} (filled : front ≠ [])
    (dotless : '.' ∉ extension) : dropExtension (extension ++ '.' :: front) = front := by
  have dropped : (extension ++ '.' :: front).dropWhile (· ≠ '.') = '.' :: front := by
    rw [List.dropWhile_append_of_pos, List.dropWhile_cons_of_neg (by simp)]
    intro char member
    have apart : char ≠ '.' := fun same => dotless (same ▸ member)
    simpa using apart
  rw [dropExtension, dropped]
  cases front with
  | nil => exact absurd rfl filled
  | cons char rest => rfl

theorem dropExtension_ne_nil {chars : List Char} (filled : chars ≠ []) :
    dropExtension chars ≠ [] := by
  have dotted := List.head?_dropWhile_not (· ≠ '.') chars
  unfold dropExtension
  split
  · exact filled
  · exact filled
  · rename_i head stem whole found
    rw [found] at dotted
    rintro rfl
    exact whole (by simpa using dotted) rfl

theorem mem_of_mem_dropExtension {chars : List Char} {char : Char}
    (member : char ∈ dropExtension chars) : char ∈ chars := by
  unfold dropExtension at member
  split at member
  · exact member
  · exact member
  · rename_i head stem whole found
    apply (List.dropWhile_suffix (· ≠ '.')).subset
    rw [found]
    exact List.mem_cons_of_mem head member

theorem stem_ne_empty (filled : name ≠ "") : stem name ≠ "" := by
  intro empty
  have chars := congrArg String.toList empty
  rw [stem, String.toList_ofList] at chars
  refine dropExtension_ne_nil ?_ (List.reverse_eq_nil_iff.mp chars)
  rw [Ne, List.reverse_eq_nil_iff, String.toList_eq_nil_iff]
  exact filled

theorem stem_append {front : String} (filled : front ≠ "") (dotless : '.' ∉ extension.toList) :
    stem (front ++ "." ++ extension) = front := by
  have chars : (front ++ "." ++ extension).toList.reverse =
      extension.toList.reverse ++ '.' :: front.toList.reverse := by simp
  rw [stem, chars, dropExtension_of_dot, List.reverse_reverse, String.ofList_toList]
  · simpa using filled
  · simpa using dotless

/-- A name keeps its extension exactly if that is the given one. -/
theorem stem_append_eq_iff (filled : name ≠ "") (dotless : '.' ∉ extension.toList) :
    stem name ++ "." ++ extension = name ↔
      ∃ front, front ≠ "" ∧ name = front ++ "." ++ extension := by
  constructor
  · intro same
    exact ⟨stem name, stem_ne_empty filled, same.symm⟩
  · rintro ⟨front, begins, rfl⟩
    rw [stem_append begins dotless]

theorem renamed_of_isFileName (named : IsFileName (renamed name extension)) :
    renamed name extension = stem name ++ "." ++ extension := by
  unfold renamed at named ⊢
  split
  · rename_i dot
    rw [if_pos dot] at named
    exact absurd rfl named.2.2
  · rfl

theorem slash_not_mem_renamed (slashless : '/' ∉ name.toList)
    (without : '/' ∉ extension.toList) : '/' ∉ (renamed name extension).toList := by
  have front : '/' ∉ (stem name).toList := by
    rw [stem, String.toList_ofList, List.mem_reverse]
    intro member
    exact slashless (List.mem_reverse.mp (mem_of_mem_dropExtension member))
  unfold renamed
  split
  · decide
  · exact not_mem_append (not_mem_append front (by decide)) without

end Extensions

/-- The last segment of the path is a name with the extension. -/
def HasExtension (path extension : String) : Prop :=
  ∃ front, front ≠ "" ∧ (segments path).getLast? = some (front ++ "." ++ extension)

/-- Another extension changes the last segment of a path that ends in a name. -/
theorem segments_withExtension {path name extension : String} {before : List String}
    (split : segments path = before ++ [name]) (named : IsFileName name)
    (slashless : '/' ∉ extension.toList) :
    segments (withExtension path extension) = before ++ [renamed name extension] := by
  have each : ∀ segment ∈ before ++ [name], '/' ∉ segment.toList := fun segment listed =>
    slash_not_mem_segment (split ▸ listed)
  rw [List.forall_mem_append, List.forall_mem_singleton] at each
  have found : splitName? (segments path).reverse = some (before.reverse, name) := by
    rw [split, List.reverse_concat]
    exact splitName?_of_isFileName named _
  simp only [withExtension, found, List.reverse_reverse]
  apply segments_intercalate
  · exact List.append_ne_nil_of_right_ne_nil _ (List.cons_ne_nil _ _)
  · rw [List.forall_mem_append, List.forall_mem_singleton]
    exact ⟨each.1, slash_not_mem_renamed each.2 slashless⟩

end Path

namespace FileTree

variable {tree : FileTree} {path extension : String} {content : Bytes} {place written : Place}

theorem segmentsOf_eq_ok {segments : List String} (short : segmentsOf path = .ok segments) :
    Path.segments path = segments := by
  unfold segmentsOf at short
  split at short
  · exact Except.ok.inj short
  · cases short

theorem step_of_isFileName {name : String} (named : Path.IsFileName name) :
    step place name = place ++ [name] := by
  rw [step, if_neg (not_or.mpr ⟨named.1, named.2.1⟩), if_neg named.2.2]

/-- A file is not where its path stops to lead on. -/
theorem last_leads_on {before : List String} {last : String} {start : Place}
    (followed : (before ++ [last]).foldlM tree.follow start = .ok place)
    (there : tree.contentAt? place = some content) : last ≠ "" ∧ last ≠ "." := by
  obtain ⟨directory, -, final⟩ := follow_concat.mp followed
  obtain ⟨entered, -, reached⟩ := follow_eq_ok_iff.mp final
  rw [← not_or]
  intro idle
  rw [step, if_pos idle] at reached
  rw [← reached, (node?_eq_directory_iff.mp entered).1] at there
  cases there

/-- A file that a unit can be put beside has a path that ends in its name. -/
theorem exists_name_of_read (read : tree.read path = .ok content)
    (beside : tree.target (Path.withExtension path extension) = .ok written) :
    ∃ before name, Path.segments path = before ++ [name] ∧ Path.IsFileName name := by
  obtain ⟨place, ⟨segments, short, followed⟩, there⟩ := read_eq_ok_iff.mp read
  cases segmentsOf_eq_ok short
  cases found : Path.splitName? (Path.segments path).reverse with
  | none =>
      -- a path that ends in no name is not changed, and nothing can be written there
      obtain ⟨before, name, -, whole, -, named, -⟩ := exists_name_of_target beside
      have split := segmentsOf_eq_ok whole
      simp only [Path.withExtension, found] at split
      exact ⟨before, name, split, named⟩
  | some parts =>
      obtain ⟨before, name⟩ := parts
      obtain ⟨trail, reversed, named, idle⟩ := Path.exists_trail_of_splitName? found
      have split := congrArg List.reverse reversed
      rw [List.reverse_reverse] at split
      cases trail with
      | nil =>
          rw [List.nil_append, List.reverse_cons] at split
          exact ⟨before.reverse, name, split, named⟩
      | cons last trail =>
          rw [List.cons_append, List.reverse_cons] at split
          rw [split] at followed
          obtain ⟨filled, onward⟩ := last_leads_on followed there
          rcases idle last List.mem_cons_self with empty | dot
          · exact absurd empty filled
          · exact absurd dot onward

theorem origin_concat {before : List String} {name other : String} (filled : name ≠ "")
    (otherFilled : other ≠ "") :
    tree.origin (before ++ [name]) = tree.origin (before ++ [other]) := by
  cases before with
  | nil => simp [origin, filled, otherFilled]
  | cons first rest => rfl

/-- A file and a unit beside it are at the same place exactly if the file has the extension of the
unit. -/
theorem exists_place_of_read (read : tree.read path = .ok content)
    (beside : tree.target (Path.withExtension path extension) = .ok written)
    (slashless : '/' ∉ extension.toList) (dotless : '.' ∉ extension.toList) :
    ∃ place, tree.LeadsTo path place ∧ tree.contentAt? place = some content ∧
      (place = written ↔ Path.HasExtension path extension) := by
  obtain ⟨before, name, split, named⟩ := exists_name_of_read read beside
  obtain ⟨place, leads, there⟩ := read_eq_ok_iff.mp read
  refine ⟨place, leads, there, ?_⟩
  obtain ⟨segments, short, followed⟩ := leads
  cases (segmentsOf_eq_ok short).symm.trans split
  obtain ⟨front, target, directory, whole, entered, fresh, final⟩ := exists_name_of_target beside
  have ends := (segmentsOf_eq_ok whole).symm.trans
    (Path.segments_withExtension split named slashless)
  rw [← List.concat_eq_append, ← List.concat_eq_append, List.concat_inj] at ends
  obtain ⟨rfl, rfl⟩ := ends
  -- both paths lead into one directory
  obtain ⟨home, followedHome, last⟩ := follow_concat.mp followed
  rw [origin_concat named.1 fresh.1, entered] at followedHome
  cases followedHome
  have input := (follow_eq_ok_iff.mp last).2.2
  have output := (follow_eq_ok_iff.mp final).2.2
  rw [step_of_isFileName named] at input
  rw [step_of_isFileName fresh] at output
  rw [← input, ← output, List.append_cancel_left_eq, Path.renamed_of_isFileName fresh]
  calc
    [name] = [Path.stem name ++ "." ++ extension]
        ↔ Path.stem name ++ "." ++ extension = name := by rw [List.singleton_inj, eq_comm]
    _ ↔ ∃ front, front ≠ "" ∧ name = front ++ "." ++ extension :=
      Path.stem_append_eq_iff named.1 dotless
    _ ↔ Path.HasExtension path extension := by
      rw [Path.HasExtension, split, List.getLast?_concat]
      simp only [Option.some.injEq]

/-- Of a file that was read only the place counts. -/
theorem LeadsTo.read_insert {new : Bytes} (leads : tree.LeadsTo path place)
    (there : tree.contentAt? place = some content) (free : tree.node? written ≠ some .directory) :
    (tree.insert written new).read path = .ok (if place = written then new else content) := by
  apply read_eq_ok_iff.mpr
  refine ⟨place, leads.insert free, ?_⟩
  rw [contentAt?_insert]
  split
  · rfl
  · exact there

end FileTree

/-- Every bytecode file begins with the same byte. -/
theorem Image.head?_of_parse {bytes : Bytes} {image : Image}
    (parsed : (Image.parse bytes).outcome = .ok image) : bytes.head? = some 0x4C := by
  rw [Image.parse, Trace.outcome_bind, Trace.outcome_ofExcept, except_bind_eq_ok] at parsed
  obtain ⟨⟨sections, rest⟩, read, -⟩ := parsed
  obtain ⟨⟨⟨⟩, behind⟩, header, -⟩ := except_bind_eq_ok.mp read
  obtain ⟨stored, source, rfl⟩ := Sections.readHeader_consumes _ _ _ header
  have begins : bytes = _ := congrArg Source.bytes source
  rw [begins]
  rfl

/-- A unit with headers begins with the line of the first one. -/
theorem head?_encode_source {settings : Settings} {program : Program} {compilation : Compilation}
    (compiled : (compile settings program).outcome = .ok compilation)
    (headers : settings.includes ≠ []) :
    (Utf8.encode compilation.source).head? = some 0x23 := by
  obtain ⟨header, others, given⟩ := List.exists_cons_of_ne_nil headers
  obtain ⟨below, source⟩ := source_begins compiled
  have chars : ∃ rest, compilation.source.toList = '#' :: rest := by
    rw [source, SourceUnit.preambleText, given]
    simp [String.join_cons]
  obtain ⟨rest, begins⟩ := chars
  rw [Utf8.encode_eq_flatMap, begins]
  rfl

namespace CommandLine

variable {arguments : List String} {options : Options} {tree after : FileTree}

theorem run_of_written (asked : Arguments.read arguments = some (.compile options)) {bytes : Bytes}
    {image : Image} {compilation : Compilation} (read : tree.read options.input = .ok bytes)
    (parsed : (Image.parse bytes).outcome = .ok image)
    (compiled : (compile options.requested image.program).outcome = .ok compilation)
    (usable : compilation.isUsable = true)
    (written : tree.write options.destination (Utf8.encode compilation.source) = .ok after) :
    (run arguments tree).exit = 0 ∧ (run arguments tree).tree = after := by
  obtain ⟨notices, executed⟩ := execute_eq_ok_iff.mpr
    ⟨bytes, image, compilation, read, parsed, compiled, usable, written⟩
  rw [run_of_ok asked executed]
  exact ⟨rfl, rfl⟩

theorem exists_written_of_run (asked : Arguments.read arguments = some (.compile options))
    (succeeded : (run arguments tree).exit = 0) :
    ∃ bytes image compilation, tree.read options.input = .ok bytes ∧
      (Image.parse bytes).outcome = .ok image ∧
      (compile options.requested image.program).outcome = .ok compilation ∧
      tree.write options.destination (Utf8.encode compilation.source) =
        .ok (run arguments tree).tree := by
  cases executed : execute options ⟨tree, []⟩ with
  | error error state =>
      rw [run_of_error asked executed] at succeeded
      cases succeeded
  | ok done state =>
      obtain ⟨bytes, image, compilation, read, parsed, compiled, -, written⟩ :=
        execute_eq_ok_iff.mp ⟨state.notices, executed⟩
      rw [run_of_ok asked executed]
      exact ⟨bytes, image, compilation, read, parsed, compiled, written⟩

/-- A run on the file that exits at once succeeds, if a unit can be made and finds a place. -/
theorem run_exitsAtOnce (asked : Arguments.read arguments = some (.compile options))
    (read : tree.read options.input = .ok exitsAtOnce.raw)
    (valid : options.requested.invalidName? = none)
    (passes : (Bodies.items options.requested exitsAtOnce.program
      exitsAtOnce.program.scan.arena).outcome.isOk = true)
    {place : Place}
    (written : ∀ unit, tree.write options.destination unit = .ok (tree.insert place unit)) :
    ∃ compilation, (compile options.requested exitsAtOnce.program).outcome = .ok compilation ∧
      (run arguments tree).exit = 0 ∧
      (run arguments tree).tree = tree.insert place (Utf8.encode compilation.source) := by
  obtain ⟨count, bodies⟩ := exists_of_isOk passes
  have compiled := compile_of_written valid exitsAtOnce_clean bodies
  exact ⟨_, compiled, run_of_written asked read exitsAtOnce_parsed compiled rfl (written _)⟩

end CommandLine

theorem Options.includes_requested_ne_nil (options : Options) :
    options.requested.includes ≠ [] := by
  unfold requested
  split
  · exact List.cons_ne_nil _ _
  · assumption

open CommandLine in
/-- A successful run without a path for the unit leaves the input as it was, exactly if the input
does not have the extension of source code. -/
theorem default_output_keeps_input_iff (arguments : List String) (tree : FileTree)
    (succeeded : (run arguments tree).exit = 0) :
    ((∀ options, Arguments.read arguments ≠ some (.compile options)) →
      (run arguments tree).tree = tree) ∧
    ∀ options, Arguments.read arguments = some (.compile options) → options.output = none →
      ∃ content, tree.read options.input = .ok content ∧
        ((run arguments tree).tree.read options.input = .ok content ↔
          ¬ Path.HasExtension options.input "cpp") := by
  constructor
  · intro unasked
    unfold run
    split
    · rfl
    · rfl
    · rfl
    · rename_i options asked
      exact absurd asked (unasked options)
  · intro options asked unnamed
    obtain ⟨content, image, compilation, read, parsed, compiled, written⟩ :=
      exists_written_of_run asked succeeded
    have destination : options.destination = Path.withExtension options.input "cpp" := by
      rw [Options.destination, unnamed]
      rfl
    rw [destination] at written
    obtain ⟨target, beside, free, inserted⟩ := FileTree.write_eq_ok_iff.mp written
    obtain ⟨place, leads, there, same⟩ :=
      FileTree.exists_place_of_read read beside (by decide) (by decide)
    -- a unit does not begin like a bytecode file
    have differs : Utf8.encode compilation.source ≠ content := by
      intro equal
      have first := Image.head?_of_parse parsed
      rw [← equal, head?_encode_source compiled options.includes_requested_ne_nil] at first
      cases first
    refine ⟨content, read, ?_⟩
    rw [inserted, leads.read_insert there free, ← same, Except.ok.injEq]
    split
    · rename_i replaced
      simp only [differs, replaced, not_true_eq_false]
    · rename_i apart
      simp only [apart, not_false_eq_true]

open CommandLine in
theorem default_output_keeps_input_iff_workplace :
    let outcome := run ["p.bc", "--namespace", "rt::vm", "--include", "a.h"] workplace
    outcome.exit = 0 ∧ ¬ Path.HasExtension "p.bc" "cpp" ∧
      workplace.read "p.bc" = .ok exitsAtOnce.raw ∧
      outcome.tree.read "p.bc" = .ok exitsAtOnce.raw := by
  have asked : Arguments.read ["p.bc", "--namespace", "rt::vm", "--include", "a.h"] =
      some (.compile renamedRuntime) := by decide +kernel
  have read : workplace.read "p.bc" = .ok exitsAtOnce.raw := rfl
  have destination : renamedRuntime.destination = "p.cpp" := by decide +kernel
  have written : ∀ unit, workplace.write renamedRuntime.destination unit =
      .ok (workplace.insert ["work", "p.cpp"] unit) := by
    intro unit
    rw [destination]
    exact FileTree.write_eq_ok_iff.mpr ⟨["work", "p.cpp"], rfl, by decide +kernel, rfl⟩
  obtain ⟨compilation, -, succeeded, -⟩ :=
    run_exitsAtOnce asked read (by decide +kernel) (by decide +kernel) written
  have other : ¬ Path.HasExtension "p.bc" "cpp" := by
    rintro ⟨front, -, ends⟩
    have last : (Path.segments "p.bc").getLast? = some "p.bc" := by decide +kernel
    rw [last, Option.some.injEq] at ends
    have chars := congrArg (fun name => name.toList.getLast?) ends
    simp at chars
  obtain ⟨content, before, kept⟩ :=
    (default_output_keeps_input_iff _ workplace succeeded).2 renamedRuntime asked rfl
  cases read.symm.trans before
  exact ⟨succeeded, other, read, kept.mpr other⟩

/-- A working directory in which the bytecode file has the extension of source code. -/
def misnamed : FileTree := ⟨["work"], [(["work", "p.cpp"], exitsAtOnce.raw)]⟩

/-- Asks for the unit of that file, and for nothing else. -/
def misnamedInput : Options := ⟨"p.cpp", none, none, []⟩

open CommandLine in
/-- The unit takes the place of the bytecode file. -/
theorem default_output_replaces_input_misnamed :
    Arguments.read ["p.cpp"] = some (.compile misnamedInput) ∧
      (run ["p.cpp"] misnamed).exit = 0 ∧
      misnamed.read "p.cpp" = .ok exitsAtOnce.raw ∧
      (run ["p.cpp"] misnamed).tree.read "p.cpp" ≠ .ok exitsAtOnce.raw := by
  have asked : Arguments.read ["p.cpp"] = some (.compile misnamedInput) := by decide +kernel
  have read : misnamed.read "p.cpp" = .ok exitsAtOnce.raw := rfl
  have destination : misnamedInput.destination = "p.cpp" := by decide +kernel
  have written : ∀ unit, misnamed.write "p.cpp" unit =
      .ok (misnamed.insert ["work", "p.cpp"] unit) := fun unit =>
    FileTree.write_eq_ok_iff.mpr ⟨["work", "p.cpp"], rfl, by decide +kernel, rfl⟩
  obtain ⟨compilation, compiled, succeeded, after⟩ :=
    run_exitsAtOnce asked read (by decide +kernel) (by decide +kernel) fun unit =>
      (congrArg (misnamed.write · unit) destination).trans (written unit)
  refine ⟨asked, succeeded, read, fun kept => ?_⟩
  rw [after, FileTree.read_of_write (written _)] at kept
  have first := Image.head?_of_parse exitsAtOnce_parsed
  rw [← Except.ok.inj kept,
    head?_encode_source compiled misnamedInput.includes_requested_ne_nil] at first
  cases first

end ThreadedCode
