import ThreadedCode.CommandLine.Run
import ThreadedCode.Proofs.Compilation
import ThreadedCode.Proofs.RoundTrip

/-!
# What a run does to the files

A run that fails leaves all files as they were. A run that succeeds has compiled the program in its
input, and has written the unit to one place. The steps of a run keep the files, except for the last
one, and that one keeps them if it fails.
-/

namespace ThreadedCode

/-- The segment is a name in a directory. -/
def Path.IsFileName (segment : String) : Prop := segment ≠ "" ∧ segment ≠ "." ∧ segment ≠ ".."

namespace FileTree

variable {tree : FileTree} {place : Place} {content : Bytes}

/-- Of two files at one place the first counts, so that those behind it can be left out. -/
theorem lookup_filter {files : List (Place × Bytes)} {other : Place} (apart : other ≠ place) :
    (files.filter fun entry => entry.1 ≠ place).lookup other = files.lookup other := by
  induction files with
  | nil => rfl
  | cons entry rest ih =>
      obtain ⟨found, bytes⟩ := entry
      by_cases same : found = place
      · have different : (other == found) = false := by
          rw [same]
          exact beq_eq_false_iff_ne.mpr apart
        rw [List.filter_cons_of_neg (by simpa using same), ih, List.lookup_cons, different]
      · rw [List.filter_cons_of_pos (by simpa using same), List.lookup_cons, List.lookup_cons, ih]

/-- A file that is put at a place is there, and all other files are as before. -/
theorem contentAt?_insert (other : Place) :
    (tree.insert place content).contentAt? other =
      if other = place then some content else tree.contentAt? other := by
  unfold contentAt? insert
  by_cases same : other = place
  · simp [same]
  · rw [if_neg same, List.lookup_cons, beq_eq_false_iff_ne.mpr same]
    exact lookup_filter same

/-- Directories stay when a file is put somewhere. -/
theorem isDirectory_insert {directory : Place} (there : tree.isDirectory directory = true) :
    (tree.insert place content).isDirectory directory = true := by
  unfold isDirectory at there ⊢
  rcases Bool.or_eq_true_iff.mp there with above | holds
  · exact Bool.or_eq_true_iff.mpr (Or.inl above)
  · obtain ⟨entry, member, leads⟩ := List.any_eq_true.mp holds
    refine Bool.or_eq_true_iff.mpr (Or.inr (List.any_eq_true.mpr ?_))
    by_cases same : entry.1 = place
    · exact ⟨(place, content), List.mem_cons_self, same ▸ leads⟩
    · refine ⟨entry, List.mem_cons_of_mem _ (List.mem_filter.mpr ⟨member, ?_⟩), leads⟩
      simpa using same

theorem enter_eq_ok_iff {directory : Place} :
    tree.enter directory = .ok () ↔ tree.node? directory = some .directory := by
  unfold enter
  cases tree.node? directory with
  | none => simp
  | some node => cases node <;> simp

theorem node?_eq_directory_iff {directory : Place} :
    tree.node? directory = some .directory ↔
      tree.contentAt? directory = none ∧ tree.isDirectory directory = true := by
  unfold node?
  cases tree.contentAt? directory with
  | none => simp
  | some content => simp

theorem node?_eq_file_iff : tree.node? place = some (.file content) ↔
    tree.contentAt? place = some content := by
  unfold node?
  cases tree.contentAt? place with
  | some other => simp
  | none => cases tree.isDirectory place <;> simp

/-- What is no directory can become a file, and every directory remains one. -/
theorem node?_insert {directory : Place} (free : tree.node? place ≠ some .directory)
    (there : tree.node? directory = some .directory) :
    (tree.insert place content).node? directory = some .directory := by
  have apart : directory ≠ place := fun same => free (same ▸ there)
  obtain ⟨empty, leads⟩ := node?_eq_directory_iff.mp there
  rw [node?_eq_directory_iff, contentAt?_insert, if_neg apart]
  exact ⟨empty, isDirectory_insert leads⟩

theorem follow_eq_ok_iff {start reached : Place} {segment : String} :
    tree.follow start segment = .ok reached ↔
      tree.node? start = some .directory ∧ segment.utf8ByteSize ≤ nameLimit ∧
        step start segment = reached := by
  rw [follow, except_bind_eq_ok]
  constructor
  · rintro ⟨⟨⟩, entered, found⟩
    refine ⟨enter_eq_ok_iff.mp entered, ?_⟩
    split at found
    · rename_i short
      exact ⟨short, Except.ok.inj found⟩
    · cases found
  · rintro ⟨there, short, rfl⟩
    exact ⟨(), enter_eq_ok_iff.mpr there, if_pos short⟩

/-- The path can be followed to the place. -/
def LeadsTo (tree : FileTree) (path : String) (place : Place) : Prop :=
  ∃ segments, segmentsOf path = .ok segments ∧
    segments.foldlM tree.follow (tree.origin segments) = .ok place

/-- What could be followed can still be followed when a file has been put somewhere. -/
theorem follow_insert (free : tree.node? place ≠ some .directory) {segments : List String}
    {start reached : Place} (followed : segments.foldlM tree.follow start = .ok reached) :
    segments.foldlM (tree.insert place content).follow start = .ok reached := by
  induction segments generalizing start with
  | nil => exact followed
  | cons segment rest ih =>
      rw [List.foldlM_cons, except_bind_eq_ok] at followed ⊢
      obtain ⟨next, first, later⟩ := followed
      obtain ⟨there, short⟩ := follow_eq_ok_iff.mp first
      exact ⟨next, follow_eq_ok_iff.mpr ⟨node?_insert free there, short⟩, ih later⟩

theorem follow_concat {before : List String} {last : String} {start reached : Place} :
    (before ++ [last]).foldlM tree.follow start = .ok reached ↔
      ∃ directory, before.foldlM tree.follow start = .ok directory ∧
        tree.follow directory last = .ok reached := by
  rw [List.foldlM_append, except_bind_eq_ok]
  simp only [List.foldlM_cons, List.foldlM_nil, bind_pure]

theorem LeadsTo.insert {path : String} {reached : Place} (leads : tree.LeadsTo path reached)
    (free : tree.node? place ≠ some .directory) :
    (tree.insert place content).LeadsTo path reached := by
  obtain ⟨segments, short, followed⟩ := leads
  exact ⟨segments, short, follow_insert free followed⟩

/-- What it takes to read a file. -/
theorem read_eq_ok_iff {path : String} :
    tree.read path = .ok content ↔
      ∃ place, tree.LeadsTo path place ∧ tree.contentAt? place = some content := by
  simp only [read, LeadsTo, except_bind_eq_ok]
  constructor
  · rintro ⟨segments, short, place, followed, found⟩
    refine ⟨place, ⟨segments, short, followed⟩, node?_eq_file_iff.mp ?_⟩
    split at found
    · cases found
    · cases found
    · rename_i there
      rw [there, Except.ok.inj found]
  · rintro ⟨place, ⟨segments, short, followed⟩, found⟩
    refine ⟨segments, short, place, followed, ?_⟩
    rw [node?_eq_file_iff.mpr found]

/-- A file is written under the last segment of the path, which must be a name, and in a directory
that is there. -/
theorem exists_name_of_target {path : String} (found : tree.target path = .ok place) :
    ∃ before name directory, segmentsOf path = .ok (before ++ [name]) ∧
      before.foldlM tree.follow (tree.origin (before ++ [name])) = .ok directory ∧
      Path.IsFileName name ∧ tree.follow directory name = .ok place := by
  rw [target, except_bind_eq_ok] at found
  obtain ⟨segments, short, found⟩ := found
  cases filled : segments.reverse.dropWhile (· = "") with
  | nil =>
      rw [filled] at found
      cases found
  | cons name before =>
      rw [filled] at found
      simp only [except_bind_eq_ok] at found
      obtain ⟨directory, followed, -, -, found⟩ := found
      split at found
      · cases found
      · rename_i proper
        rw [not_or, not_or, List.getLast?_eq_head?_reverse] at proper
        obtain ⟨noDot, noDots, noSlash⟩ := proper
        -- a path that ends in a slash leads to no file, so no empty segments are passed over
        have reversed : segments.reverse = name :: before := by
          cases last : segments.reverse with
          | nil =>
              rw [last] at filled
              cases filled
          | cons other rest =>
              have apart : other ≠ "" := fun empty => noSlash (by rw [last, empty]; rfl)
              rw [last, List.dropWhile_cons_of_neg (by simpa using apart)] at filled
              exact filled
        have split : segments = before.reverse ++ [name] := by
          rw [← List.reverse_cons, ← reversed, List.reverse_reverse]
        have named : name ≠ "" := fun empty => noSlash (by rw [reversed, empty]; rfl)
        rw [split] at short followed
        exact ⟨before.reverse, name, directory, short, followed, ⟨named, noDot, noDots⟩, found⟩

/-- The place to write at is the place that the path leads to. -/
theorem leadsTo_of_target {path : String} (found : tree.target path = .ok place) :
    tree.LeadsTo path place := by
  obtain ⟨before, name, directory, short, followed, -, last⟩ := exists_name_of_target found
  exact ⟨before ++ [name], short, follow_concat.mpr ⟨directory, followed, last⟩⟩

/-- What it takes to write a file. -/
theorem write_eq_ok_iff {path : String} {after : FileTree} :
    tree.write path content = .ok after ↔
      ∃ place, tree.target path = .ok place ∧ tree.node? place ≠ some .directory ∧
        after = tree.insert place content := by
  rw [write, except_bind_eq_ok]
  refine exists_congr fun place => and_congr_right fun _ => ?_
  cases tree.node? place with
  | none => simp [eq_comm]
  | some node => cases node <;> simp [eq_comm]

/-- A file that was written is read back. -/
theorem read_of_write {path : String} {after : FileTree}
    (written : tree.write path content = .ok after) : after.read path = .ok content := by
  obtain ⟨place, found, free, rfl⟩ := write_eq_ok_iff.mp written
  apply read_eq_ok_iff.mpr
  refine ⟨place, (leadsTo_of_target found).insert free, ?_⟩
  rw [contentAt?_insert, if_pos rfl]

end FileTree

namespace Run

variable {α β : Type}

/-- The step keeps the files if it fails. -/
def KeepsOnError (step : Run α) : Prop :=
  ∀ state error after, step state = .error error after → after.tree = state.tree

/-- The step keeps the files, however it ends. -/
structure Keeps (step : Run α) : Prop where
  ok : ∀ state value after, step state = .ok value after → after.tree = state.tree
  error : KeepsOnError step

section Steps

variable {step : Run α} {next : α → Run β} {state after : RunState}

theorem bind_eq_ok {result : β} :
    (step >>= next) state = .ok result after ↔
      ∃ value between, step state = .ok value between ∧ next value between = .ok result after := by
  show EStateM.bind step next state = _ ↔ _
  unfold EStateM.bind
  cases step state with
  | ok value between =>
      constructor
      · intro found
        exact ⟨value, between, rfl, found⟩
      · rintro ⟨_, _, ⟨⟩, found⟩
        exact found
  | error error between => simp

theorem bind_eq_error {error : RunError} (failed : (step >>= next) state = .error error after) :
    step state = .error error after ∨
      ∃ value between, step state = .ok value between ∧
        next value between = .error error after := by
  change EStateM.bind step next state = _ at failed
  unfold EStateM.bind at failed
  cases passed : step state with
  | ok value between =>
      rw [passed] at failed
      exact Or.inr ⟨value, between, rfl, failed⟩
  | error cause between =>
      rw [passed] at failed
      cases failed
      exact Or.inl rfl

/-- If the first step keeps the files, it is for the next one to keep them on failure. -/
theorem Keeps.bind (keeps : Keeps step) (later : ∀ value, KeepsOnError (next value)) :
    KeepsOnError (step >>= next) := by
  intro state error after failed
  rcases bind_eq_error failed with failed | ⟨value, between, passed, failed⟩
  · exact keeps.error state error after failed
  · exact (later value between error after failed).trans (keeps.ok state value between passed)

end Steps

section Files

variable {trace : Trace Notice RunError α} {path : String} {content : Bytes}
  {state after : RunState}

theorem ofTrace_eq_ok_iff {value : α} :
    ofTrace trace state = .ok value after ↔
      trace.outcome = .ok value ∧
        after = { state with notices := state.notices ++ trace.emitted } := by
  unfold ofTrace
  cases trace.outcome <;> simp [eq_comm]

theorem readFile_eq_ok_iff :
    readFile path state = .ok content after ↔
      state.tree.read path = .ok content ∧ after = state := by
  unfold readFile
  cases state.tree.read path <;> simp [eq_comm]

theorem writeFile_eq_ok_iff :
    writeFile path content state = .ok () after ↔
      state.tree.write path content = .ok after.tree ∧ after.notices = state.notices := by
  unfold writeFile
  obtain ⟨tree, notices⟩ := after
  cases state.tree.write path content <;> simp [eq_comm]

theorem keeps_log (notice : Notice) : Keeps (log notice) := by
  constructor
  · rintro state value after ⟨⟩
    rfl
  · rintro state error after ⟨⟩

theorem keeps_ofTrace (trace : Trace Notice RunError α) : Keeps (ofTrace trace) := by
  constructor
  · intro state value after passed
    rw [(ofTrace_eq_ok_iff.mp passed).2]
  · intro state error after failed
    unfold ofTrace at failed
    split at failed <;> cases failed
    rfl

theorem keeps_readFile (path : String) : Keeps (readFile path) := by
  constructor
  · intro state content after passed
    rw [(readFile_eq_ok_iff.mp passed).2]
  · intro state error after failed
    unfold readFile at failed
    split at failed <;> cases failed
    rfl

/-- A file that cannot be written leaves the others alone. -/
theorem keepsOnError_writeFile (path : String) (content : Bytes) :
    KeepsOnError (writeFile path content) := by
  intro state error after failed
  unfold writeFile at failed
  split at failed <;> cases failed
  rfl

end Files

end Run

theorem except_mapError_eq_ok {ε δ α : Type} {result : Except ε α} {f : ε → δ} {value : α} :
    result.mapError f = .ok value ↔ result = .ok value := by
  cases result with
  | error cause => exact ⟨nofun, nofun⟩
  | ok other =>
      constructor <;>
      · rintro ⟨⟩
        rfl

@[simp] theorem Trace.outcome_mapError {ι ε δ α : Type} (trace : Trace ι ε α) (f : ε → δ) :
    (trace.mapError f).outcome = trace.outcome.mapError f := rfl

namespace Job

/-- The job writes last, so that it has written nothing if it fails. -/
theorem keepsOnError_run (job : Job) : Run.KeepsOnError job.run :=
  (Run.keeps_log _).bind fun _ => (Run.keeps_readFile _).bind fun _ =>
    (Run.keeps_ofTrace _).bind fun _ => Run.keepsOnError_writeFile _ _

variable {job : Job}

/-- The bytes of the input are compiled to the source of a usable unit, if there is one. -/
theorem compile_eq_ok_iff {bytes : Bytes} {source : String} :
    (job.compile bytes).outcome = .ok source ↔
      ∃ image compilation, (Image.parse bytes).outcome = .ok image ∧
        (ThreadedCode.compile job.settings image.program).outcome = .ok compilation ∧
        compilation.isUsable = true ∧ compilation.source = source := by
  simp only [compile, Trace.outcome_bind, except_bind_eq_ok, Trace.outcome_mapError,
    except_mapError_eq_ok]
  constructor
  · rintro ⟨image, parsed, compilation, compiled, found⟩
    refine ⟨image, compilation, parsed, compiled, ?_⟩
    split at found
    · cases found
    · rename_i whole
      exact ⟨by rw [Compilation.isUsable, whole]; rfl, Except.ok.inj found⟩
  · rintro ⟨image, compilation, parsed, compiled, usable, rfl⟩
    refine ⟨image, parsed, compilation, compiled, ?_⟩
    rw [Option.isNone_iff_eq_none.mp usable]
    rfl

/-- A job is done if its input can be read and compiled, and its output can be written. -/
theorem run_eq_ok_iff {state : RunState} {tree : FileTree} :
    (∃ notices, job.run state = .ok () ⟨tree, notices⟩) ↔
      ∃ bytes source, state.tree.read job.input = .ok bytes ∧
        (job.compile bytes).outcome = .ok source ∧
        state.tree.write job.output (Utf8.encode source) = .ok tree := by
  simp only [run, Run.bind_eq_ok, Run.readFile_eq_ok_iff, Run.ofTrace_eq_ok_iff,
    Run.writeFile_eq_ok_iff]
  constructor
  · rintro ⟨notices, ⟨⟩, started, ⟨⟩, bytes, _, ⟨read, rfl⟩, source, _, ⟨compiled, rfl⟩, written, -⟩
    exact ⟨bytes, source, read, compiled, written⟩
  · rintro ⟨bytes, source, read, compiled, written⟩
    exact ⟨_, (), _, rfl, bytes, _, ⟨read, rfl⟩, source, _, ⟨compiled, rfl⟩, written, rfl⟩

end Job

namespace Options

/-- The usual settings with the namespace and the headers that are given. Given headers take the
place of the usual ones, in their order. -/
def requested (options : Options) : Settings :=
  { ({} : Settings) with
    runtimeNamespace := options.runtimeNamespace.getD ({} : Settings).runtimeNamespace
    includes := if options.includes = [] then ({} : Settings).includes else options.includes }

/-- The path of the unit, which is the one that is given or that of the input with the extension of
source code. -/
def destination (options : Options) : String :=
  options.output.getD (Path.withExtension options.input "cpp")

variable {options : Options}

theorem settings_of_namespace
    (paths : ∀ text, options.runtimeNamespace = some text → Settings.isNamespace text = true) :
    options.settings = .ok options.requested := by
  have headers : ∀ named : Settings,
      (if options.includes.isEmpty then named else { named with includes := options.includes }) =
        { named with
          includes := if options.includes = [] then named.includes else options.includes } := by
    intro named
    cases options.includes <;> rfl
  simp only [Options.settings, headers]
  cases given : options.runtimeNamespace with
  | none =>
      rw [requested, given]
      rfl
  | some text =>
      simp only [Settings.setNamespace_of_path (paths text given)]
      rw [requested, given]
      rfl

theorem settings_of_no_namespace {text : String} (given : options.runtimeNamespace = some text)
    (unfit : Settings.isNamespace text = false) :
    options.settings = .error (.invalidIdentifier text) := by
  simp only [Options.settings, given, Settings.setNamespace_of_no_path unfit]
  rfl

/-- Options are good for a job unless they give a namespace that is none. -/
theorem job_eq_ok_iff {job : Job} :
    options.job = .ok job ↔
      (∀ text, options.runtimeNamespace = some text → Settings.isNamespace text = true) ∧
        job = ⟨options.requested, options.input, options.destination⟩ := by
  rw [Options.job, except_bind_eq_ok]
  constructor
  · rintro ⟨settings, found, result⟩
    have paths : ∀ text, options.runtimeNamespace = some text →
        Settings.isNamespace text = true := by
      intro text given
      cases path : Settings.isNamespace text with
      | true => rfl
      | false =>
          rw [settings_of_no_namespace given path] at found
          cases found
    rw [settings_of_namespace paths] at found
    cases found
    exact ⟨paths, (Except.ok.inj result).symm⟩
  · rintro ⟨paths, rfl⟩
    exact ⟨options.requested, settings_of_namespace paths, rfl⟩

/-- Settings that a program was compiled with name a namespace. -/
theorem isNamespace_of_compile {program : Program} {compilation : Compilation}
    (compiled : (compile options.requested program).outcome = .ok compilation) {text : String}
    (given : options.runtimeNamespace = some text) : Settings.isNamespace text = true := by
  have path := (Settings.invalidName?_eq_none_iff.mp (valid_of_compile compiled)).1
  simpa [requested, given] using path

end Options

namespace CommandLine

variable {options : Options} {tree after : FileTree}

theorem keepsOnError_execute (options : Options) : Run.KeepsOnError (execute options) :=
  (Run.keeps_ofTrace _).bind fun job => job.keepsOnError_run

/-- Options are carried out if the input holds a program that has a usable unit, and if that can be
written. -/
theorem execute_eq_ok_iff :
    (∃ notices, execute options ⟨tree, []⟩ = .ok () ⟨after, notices⟩) ↔
      ∃ bytes image compilation, tree.read options.input = .ok bytes ∧
        (Image.parse bytes).outcome = .ok image ∧
        (compile options.requested image.program).outcome = .ok compilation ∧
        compilation.isUsable = true ∧
        tree.write options.destination (Utf8.encode compilation.source) = .ok after := by
  constructor
  · rintro ⟨notices, executed⟩
    obtain ⟨job, between, started, finished⟩ := Run.bind_eq_ok.mp executed
    obtain ⟨good, rfl⟩ := Run.ofTrace_eq_ok_iff.mp started
    obtain ⟨-, rfl⟩ := Options.job_eq_ok_iff.mp (except_mapError_eq_ok.mp good)
    obtain ⟨bytes, source, read, done, written⟩ := Job.run_eq_ok_iff.mp ⟨notices, finished⟩
    obtain ⟨image, compilation, parsed, compiled, usable, rfl⟩ := Job.compile_eq_ok_iff.mp done
    exact ⟨bytes, image, compilation, read, parsed, compiled, usable, written⟩
  · rintro ⟨bytes, image, compilation, read, parsed, compiled, usable, written⟩
    have good : options.job = .ok ⟨options.requested, options.input, options.destination⟩ :=
      Options.job_eq_ok_iff.mpr
        ⟨fun text given => Options.isNamespace_of_compile compiled given, rfl⟩
    have started : Run.ofTrace (Trace.ofExcept (options.job.mapError RunError.failed)) ⟨tree, []⟩ =
        .ok ⟨options.requested, options.input, options.destination⟩ ⟨tree, []⟩ := by
      rw [good]
      rfl
    have done :
        (Job.compile ⟨options.requested, options.input, options.destination⟩ bytes).outcome =
          .ok compilation.source :=
      Job.compile_eq_ok_iff.mpr ⟨image, compilation, parsed, compiled, usable, rfl⟩
    obtain ⟨notices, finished⟩ :
        ∃ notices, Job.run ⟨options.requested, options.input, options.destination⟩ ⟨tree, []⟩ =
          .ok () ⟨after, notices⟩ :=
      Job.run_eq_ok_iff.mpr ⟨bytes, _, read, done, written⟩
    exact ⟨notices, Run.bind_eq_ok.mpr ⟨_, _, started, finished⟩⟩

variable {arguments : List String}

theorem run_of_ok (asked : Arguments.read arguments = some (.compile options)) {state : RunState}
    (executed : execute options ⟨tree, []⟩ = .ok () state) :
    run arguments tree = ⟨0, "", none, state.tree, state.notices⟩ := by
  simp only [run, asked, executed]

theorem run_of_error (asked : Arguments.read arguments = some (.compile options))
    {error : RunError} {state : RunState}
    (executed : execute options ⟨tree, []⟩ = .error error state) :
    run arguments tree = ⟨1, "", some error.message, state.tree, state.notices⟩ := by
  simp only [run, asked, executed]

end CommandLine

open CommandLine in
/-- A run that fails keeps all files. So does a run that is not asked for a unit. A run that is
asked for one and succeeds has compiled the program in its input, as the options say, to a usable
unit. The source of the unit can then be read at the path of the unit, and at all other places the
files are as before. Such a run fails only if there is no usable unit or it cannot be written. -/
theorem run_writes_unit_or_nothing (arguments : List String) (tree : FileTree) :
    ((run arguments tree).exit ≠ 0 → (run arguments tree).tree = tree) ∧
    ((∀ options, Arguments.read arguments ≠ some (.compile options)) →
      (run arguments tree).tree = tree) ∧
    ∀ options, Arguments.read arguments = some (.compile options) →
      ((run arguments tree).exit = 0 →
        ∃ bytes image compilation place,
          tree.read options.input = .ok bytes ∧
          (Image.parse bytes).outcome = .ok image ∧
          (compile options.requested image.program).outcome = .ok compilation ∧
          compilation.isUsable = true ∧
          tree.target options.destination = .ok place ∧
          (run arguments tree).tree.contentAt? place = some (Utf8.encode compilation.source) ∧
          (run arguments tree).tree.read options.destination =
            .ok (Utf8.encode compilation.source) ∧
          ∀ other, other ≠ place →
            (run arguments tree).tree.contentAt? other = tree.contentAt? other) ∧
      ∀ bytes image compilation after,
        tree.read options.input = .ok bytes →
        (Image.parse bytes).outcome = .ok image →
        (compile options.requested image.program).outcome = .ok compilation →
        compilation.isUsable = true →
        tree.write options.destination (Utf8.encode compilation.source) = .ok after →
        (run arguments tree).exit = 0 := by
  cases asked : Arguments.read arguments with
  | none =>
      have nothing : (run arguments tree).tree = tree := by simp only [run, asked]
      exact ⟨fun _ => nothing, fun _ => nothing, nofun⟩
  | some request =>
      cases request with
      | version | help =>
          have nothing : (run arguments tree).tree = tree := by simp only [run, asked]
          exact ⟨fun _ => nothing, fun _ => nothing, nofun⟩
      | compile options =>
          cases executed : execute options ⟨tree, []⟩ with
          | error error state =>
              have kept := keepsOnError_execute options _ _ _ executed
              rw [run_of_error asked executed]
              refine ⟨fun _ => kept, fun _ => kept, ?_⟩
              rintro _ ⟨⟩
              refine ⟨nofun, ?_⟩
              intro bytes image compilation after read parsed compiled usable written
              -- what can be compiled and written is, so that the run does not fail
              obtain ⟨notices, done⟩ := execute_eq_ok_iff.mpr
                ⟨bytes, image, compilation, read, parsed, compiled, usable, written⟩
              cases executed.symm.trans done
          | ok done state =>
              obtain ⟨bytes, image, compilation, read, parsed, compiled, usable, written⟩ :=
                execute_eq_ok_iff.mp ⟨state.notices, executed⟩
              obtain ⟨place, target, -, inserted⟩ := FileTree.write_eq_ok_iff.mp written
              rw [run_of_ok asked executed]
              refine ⟨fun failed => absurd rfl failed, fun other => absurd rfl (other options), ?_⟩
              rintro _ ⟨⟩
              refine ⟨fun _ => ?_, fun _ _ _ _ _ _ _ _ _ => rfl⟩
              refine ⟨bytes, image, compilation, place, read, parsed, compiled, usable, target, ?_,
                FileTree.read_of_write written, ?_⟩
              · rw [inserted, FileTree.contentAt?_insert, if_pos rfl]
              · intro other apart
                rw [inserted, FileTree.contentAt?_insert, if_neg apart]

/-- A file whose program has one block, which exits. -/
def exitsAtOnce : Image :=
  .ofSections { code := [90, 2, 98], attributes := [⟨false⟩, ⟨false⟩, ⟨true⟩] }

/-- A working directory with the file in it. -/
def workplace : FileTree := ⟨["work"], [(["work", "p.bc"], exitsAtOnce.raw)]⟩

/-- Asks for the unit of the file, with another namespace and another header. -/
def renamedRuntime : Options := ⟨"p.bc", none, some "rt::vm", ["a.h"]⟩

theorem exists_of_isOk {ε α : Type} {result : Except ε α} (passes : result.isOk = true) :
    ∃ value, result = .ok value := by
  cases result with
  | error cause => cases passes
  | ok value => exact ⟨value, rfl⟩

theorem exitsAtOnce_parsed : (Image.parse exitsAtOnce.raw).outcome = .ok exitsAtOnce := by
  rw [exitsAtOnce, Image.parse_ofSections (by decide)]

theorem exitsAtOnce_clean : exitsAtOnce.program.Clean 2 := ⟨by decide +kernel, by decide +kernel⟩

open CommandLine in
/-- The unit goes beside the file, and the file stays as it is. -/
theorem run_writes_unit_or_nothing_workplace :
    let outcome := run ["p.bc", "--namespace", "rt::vm", "--include", "a.h"] workplace
    outcome.exit = 0 ∧
      ∃ compilation,
        (compile renamedRuntime.requested exitsAtOnce.program).outcome = .ok compilation ∧
        outcome.tree.read "p.cpp" = .ok (Utf8.encode compilation.source) ∧
        outcome.tree.contentAt? ["work", "p.bc"] = some exitsAtOnce.raw := by
  have asked : Arguments.read ["p.bc", "--namespace", "rt::vm", "--include", "a.h"] =
      some (.compile renamedRuntime) := by decide +kernel
  have read : workplace.read "p.bc" = .ok exitsAtOnce.raw := rfl
  have valid : renamedRuntime.requested.invalidName? = none := by decide +kernel
  have passes : (Bodies.items renamedRuntime.requested exitsAtOnce.program
      exitsAtOnce.program.scan.arena).outcome.isOk = true := by decide +kernel
  obtain ⟨count, written⟩ := exists_of_isOk passes
  have compiled := compile_of_written valid exitsAtOnce_clean written
  have beside : renamedRuntime.destination = "p.cpp" := by decide +kernel
  have target : workplace.target renamedRuntime.destination = .ok ["work", "p.cpp"] := by
    rw [beside]
    rfl
  obtain ⟨succeeds, needs⟩ := (run_writes_unit_or_nothing _ workplace).2.2 _ asked
  have exit := needs _ _ _ _ read exitsAtOnce_parsed compiled rfl
    (FileTree.write_eq_ok_iff.mpr ⟨_, target, by decide +kernel, rfl⟩)
  obtain ⟨_, _, compilation, place, read', parsed', compiled', -, target', -, unit, others⟩ :=
    succeeds exit
  cases read.symm.trans read'
  cases exitsAtOnce_parsed.symm.trans parsed'
  cases target.symm.trans target'
  rw [beside] at unit
  exact ⟨exit, compilation, compiled', unit, others _ (by decide)⟩

end ThreadedCode
