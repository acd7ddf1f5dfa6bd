import ThreadedCode.Proofs.Compilation

/-!
# Names in the settings

The grammar of identifiers and of namespaces, which are identifiers with double colons in between.
Cutting a text at its double colons and checking every part accepts exactly this grammar. A
namespace can be changed to whatever the check of the settings lets pass, and what is refused leaves
the settings alone.

A unit is only made with settings that were checked. All names that it uses as identifiers are among
those that are checked, with one exception: the macro of its guard is taken as it is.
-/

namespace ThreadedCode

namespace Identifier

/-- The letters that identifiers can have. -/
def IsLetter (char : Char) : Prop :=
  ('a' ≤ char ∧ char ≤ 'z') ∨ ('A' ≤ char ∧ char ≤ 'Z')

def IsDigit (char : Char) : Prop := '0' ≤ char ∧ char ≤ '9'

/-- The grammar of identifiers. -/
inductive IsName : List Char → Prop
  | first {char : Char} (starts : IsLetter char ∨ char = '_') : IsName [char]
  | more {chars : List Char} {char : Char} (name : IsName chars)
      (continues : IsLetter char ∨ IsDigit char ∨ char = '_') : IsName (chars ++ [char])

/-- The grammar of namespaces. -/
inductive IsQualified : List Char → Prop
  | name {chars : List Char} (name : IsName chars) : IsQualified chars
  | nested {chars rest : List Char} (name : IsName chars) (inner : IsQualified rest) :
      IsQualified (chars ++ [':', ':'] ++ rest)

section Names

variable {char : Char} {chars : List Char}

theorem between_iff {low high : Char} :
    (decide (char.val ≥ low.val) && decide (char.val ≤ high.val)) = true ↔
      low ≤ char ∧ char ≤ high := by
  rw [Bool.and_eq_true, decide_eq_true_eq, decide_eq_true_eq]
  exact Iff.rfl

theorem isAlpha_iff : char.isAlpha = true ↔ IsLetter char := by
  have upper : char.isUpper = true ↔ 'A' ≤ char ∧ char ≤ 'Z' := decide_eq_true_iff
  have lower : char.isLower = true ↔ 'a' ≤ char ∧ char ≤ 'z' := between_iff
  calc
    char.isAlpha = true ↔ char.isUpper = true ∨ char.isLower = true := Bool.or_eq_true_iff
    _ ↔ IsLetter char := by rw [upper, lower, IsLetter, or_comm]

theorem isStart_iff : isStart char = true ↔ IsLetter char ∨ char = '_' := by
  rw [isStart, Bool.or_eq_true, isAlpha_iff, beq_iff_eq]

theorem isContinue_iff : isContinue char = true ↔ IsLetter char ∨ IsDigit char ∨ char = '_' := by
  have digit : char.isDigit = true ↔ IsDigit char := between_iff
  rw [isContinue, Char.isAlphanum, Bool.or_eq_true, Bool.or_eq_true, isAlpha_iff, digit,
    beq_iff_eq, or_assoc]

theorem IsName.append (name : IsName chars) {rest : List Char}
    (continues : rest.all isContinue = true) : IsName (chars ++ rest) := by
  induction rest generalizing chars with
  | nil =>
      rw [List.append_nil]
      exact name
  | cons next rest ih =>
      rw [List.all_cons, Bool.and_eq_true] at continues
      rw [List.append_cons]
      exact ih (name.more (isContinue_iff.mp continues.1)) continues.2

theorem IsName.isValid (name : IsName chars) : isValid chars = true := by
  induction name with
  | first starts =>
      rw [Identifier.isValid, isStart_iff.mpr starts]
      rfl
  | @more chars char name continues ih =>
      cases chars with
      | nil => cases ih
      | cons first rest =>
          simp only [List.cons_append, Identifier.isValid, Bool.and_eq_true, List.all_append,
            List.all_cons, List.all_nil, and_true] at ih ⊢
          exact ⟨ih.1, ih.2, isContinue_iff.mpr continues⟩

/-- The characters are looked at one by one, as the grammar has them. -/
theorem isValid_iff : isValid chars = true ↔ IsName chars := by
  refine ⟨fun valid => ?_, IsName.isValid⟩
  cases chars with
  | nil => cases valid
  | cons first rest =>
      rw [isValid, Bool.and_eq_true] at valid
      exact (IsName.first (isStart_iff.mp valid.1)).append valid.2

theorem IsName.colon_not_mem (name : IsName chars) : ':' ∉ chars :=
  not_mem_of_not_isContinue name.isValid (by decide)

end Names

section Paths

variable {char : Char} {chars part rest : List Char}

theorem pathParts_ne_nil : pathParts chars ≠ [] := by
  fun_cases pathParts chars <;> exact List.cons_ne_nil _ _

theorem pathParts_cons (apart : char ≠ ':') :
    pathParts (char :: rest) = (pathParts rest).modifyHead (char :: ·) := by
  rw [pathParts]
  · cases found : pathParts rest with
    | nil => exact absurd found pathParts_ne_nil
    | cons part parts => rfl
  · intro later colon
    exact absurd colon apart

theorem pathParts_of_plain (plain : ':' ∉ part) : pathParts part = [part] := by
  induction part with
  | nil => rfl
  | cons char part ih =>
      rw [List.mem_cons, not_or] at plain
      rw [pathParts_cons (Ne.symm plain.1), ih plain.2]
      rfl

theorem pathParts_append (plain : ':' ∉ part) :
    pathParts (part ++ [':', ':'] ++ rest) = part :: pathParts rest := by
  induction part with
  | nil => rw [List.nil_append, List.cons_append, List.cons_append, List.nil_append, pathParts]
  | cons char part ih =>
      rw [List.mem_cons, not_or] at plain
      rw [List.cons_append, List.cons_append, pathParts_cons (Ne.symm plain.1), ih plain.2]
      rfl

/-- Nothing but double colons is lost when a path is cut. -/
theorem intercalate_pathParts (chars : List Char) :
    [':', ':'].intercalate (pathParts chars) = chars := by
  fun_induction pathParts chars with
  | case1 => rfl
  | case2 rest ih =>
      cases found : pathParts rest with
      | nil => exact absurd found pathParts_ne_nil
      | cons part parts =>
          rw [List.intercalate_cons_cons, ← found, ih]
          rfl
  | case3 char rest apart empty ih => exact absurd empty pathParts_ne_nil
  | case4 char rest apart part parts found ih =>
      rw [found] at ih
      cases parts with
      | nil =>
          rw [List.intercalate_singleton] at ih ⊢
          rw [ih]
      | cons next parts =>
          rw [List.intercalate_cons_cons] at ih ⊢
          rw [List.cons_append, List.cons_append, ih]

theorem isQualified_intercalate {parts : List (List Char)} (filled : parts ≠ [])
    (names : ∀ part ∈ parts, IsName part) : IsQualified ([':', ':'].intercalate parts) := by
  induction parts with
  | nil => exact absurd rfl filled
  | cons part parts ih =>
      have name := names part List.mem_cons_self
      cases parts with
      | nil =>
          rw [List.intercalate_singleton]
          exact .name name
      | cons next parts =>
          rw [List.intercalate_cons_cons]
          apply IsQualified.nested name
          exact ih (List.cons_ne_nil _ _) fun part later =>
            names part (List.mem_cons_of_mem _ later)

/-- What remains between double colons are identifiers exactly if the text is a namespace. Names
have no colons, so a text is cut where its names are joined and nowhere else. -/
theorem isPath_iff : isPath chars = true ↔ IsQualified chars := by
  rw [isPath, List.all_eq_true]
  constructor
  · intro valid
    rw [← intercalate_pathParts chars]
    exact isQualified_intercalate pathParts_ne_nil fun part listed =>
      isValid_iff.mp (valid part listed)
  · intro qualified
    induction qualified with
    | name name =>
        rw [pathParts_of_plain name.colon_not_mem]
        exact List.forall_mem_singleton.mpr name.isValid
    | nested name inner ih =>
        rw [pathParts_append name.colon_not_mem]
        exact List.forall_mem_cons.mpr ⟨name.isValid, ih⟩

end Paths

end Identifier

namespace Settings

variable {settings : Settings} {text : String}

theorem isNamespace_iff : isNamespace text = true ↔ Identifier.IsQualified text.toList :=
  Identifier.isPath_iff

theorem isIdentifier_iff : isIdentifier text = true ↔ Identifier.IsName text.toList :=
  Identifier.isValid_iff

/-- The settings after an attempt to change the namespace, whether or not it was refused. -/
def attempt (settings : Settings) (text : String) : Settings :=
  match (setNamespace text).run settings with
  | .ok _ changed => changed
  | .error _ kept => kept

theorem setNamespace_cases (settings : Settings) (text : String) :
    (isNamespace text = true ∧
      (setNamespace text).run settings = .ok () { settings with runtimeNamespace := text }) ∨
    (isNamespace text = false ∧
      (setNamespace text).run settings = .error (.invalidIdentifier text) settings) := by
  cases path : isNamespace text with
  | true => exact Or.inl ⟨rfl, setNamespace_of_path path settings⟩
  | false => exact Or.inr ⟨rfl, setNamespace_of_no_path path settings⟩

theorem attempt_valid (valid : settings.invalidName? = none) (text : String) :
    (settings.attempt text).invalidName? = none := by
  rcases setNamespace_cases settings text with ⟨path, changed⟩ | ⟨-, kept⟩
  · rw [attempt, changed, invalidName?_eq_none_iff]
    exact ⟨path, (invalidName?_eq_none_iff.mp valid).2⟩
  · rw [attempt, kept]
    exact valid

/-- However often the namespace is changed, or is not, valid settings stay valid. -/
theorem attempts_valid (valid : settings.invalidName? = none) (texts : List String) :
    (texts.foldl attempt settings).invalidName? = none := by
  induction texts generalizing settings with
  | nil => exact valid
  | cons text rest ih => exact ih (attempt_valid valid text)

end Settings

open Settings in
/-- The namespace can be changed to a text exactly if that is one, and then nothing else changes.
Any other text is refused, and nothing changes. The check of settings that have the text for their
namespace goes on to the other names in the first case, and reports the text in the second. No
attempts make valid settings invalid. -/
theorem setNamespace_accepts_namespaces (settings : Settings) (text : String) :
    let stored := { settings with runtimeNamespace := text }
    ((∃ after, (setNamespace text).run settings = .ok () after) ↔
      Identifier.IsQualified text.toList) ∧
    (∀ after, (setNamespace text).run settings = .ok () after →
      after = stored ∧
        stored.invalidName? = settings.identifiers.find? fun name => !isIdentifier name) ∧
    (∀ failure after, (setNamespace text).run settings = .error failure after →
      failure = .invalidIdentifier text ∧ after = settings ∧ stored.invalidName? = some text) ∧
    ((∀ name ∈ settings.identifiers, isIdentifier name = true) →
      ((∃ after, (setNamespace text).run settings = .ok () after) ↔
        stored.invalidName? = none)) ∧
    (settings.invalidName? = none →
      ∀ texts : List String, (texts.foldl attempt settings).invalidName? = none) := by
  intro stored
  have checked : stored.invalidName? =
      if isNamespace text then settings.identifiers.find? fun name => !isIdentifier name
      else some text := rfl
  have stays : settings.invalidName? = none →
      ∀ texts : List String, (texts.foldl attempt settings).invalidName? = none := attempts_valid
  rcases setNamespace_cases settings text with ⟨path, changed⟩ | ⟨unfit, kept⟩
  · rw [path, if_pos rfl] at checked
    have taken : ∃ after, (setNamespace text).run settings = .ok () after := ⟨stored, changed⟩
    refine ⟨iff_of_true taken (isNamespace_iff.mp path), ?_, ?_, fun names => ?_, stays⟩
    · intro after outcome
      rw [changed] at outcome
      cases outcome
      exact ⟨rfl, checked⟩
    · intro failure after outcome
      cases changed.symm.trans outcome
    · exact iff_of_true taken (invalidName?_eq_none_iff.mpr ⟨path, names⟩)
  · rw [unfit, if_neg Bool.false_ne_true] at checked
    have refused : ¬ ∃ after, (setNamespace text).run settings = .ok () after := by
      rintro ⟨after, outcome⟩
      cases kept.symm.trans outcome
    have unqualified : ¬ Identifier.IsQualified text.toList := by
      rw [← isNamespace_iff, unfit]
      exact Bool.false_ne_true
    refine ⟨iff_of_false refused unqualified, ?_, ?_, fun _ => ?_, stays⟩
    · intro after outcome
      exact absurd ⟨after, outcome⟩ refused
    · intro failure after outcome
      rw [kept] at outcome
      cases outcome
      exact ⟨rfl, rfl, checked⟩
    · rw [checked]
      exact iff_of_false refused (Option.some_ne_none text)

open Settings in
/-- A namespace in a namespace is taken, three colons in a row are refused, and the settings stay
valid. -/
theorem setNamespace_accepts_namespaces_colons :
    let nested : Settings := { runtimeNamespace := "my::rt" }
    Identifier.IsQualified "my::rt".toList ∧ (setNamespace "my::rt").run {} = .ok () nested ∧
      ¬ Identifier.IsQualified "my:::rt".toList ∧
      (setNamespace "my:::rt").run nested = .error (.invalidIdentifier "my:::rt") nested ∧
      nested.identifiers.find? (fun name => !isIdentifier name) = none ∧
      (["my::rt", "my:::rt"].foldl attempt {}).invalidName? = none := by
  intro nested
  have path : Identifier.IsQualified "my::rt".toList := isNamespace_iff.mp (by decide)
  have unfit : ¬ Identifier.IsQualified "my:::rt".toList :=
    fun qualified => absurd (isNamespace_iff.mpr qualified) (by decide)
  obtain ⟨accepts, changed, -, -, stays⟩ := setNamespace_accepts_namespaces {} "my::rt"
  obtain ⟨after, taken⟩ := accepts.mpr path
  obtain ⟨rfl, passes⟩ := changed after taken
  have names : nested.invalidName? = none := by decide
  obtain ⟨accepted, -, refused, -, -⟩ := setNamespace_accepts_namespaces nested "my:::rt"
  cases outcome : (setNamespace "my:::rt").run nested with
  | ok done after => exact absurd (accepted.mp ⟨after, outcome⟩) unfit
  | error failure after =>
      obtain ⟨rfl, rfl, -⟩ := refused failure after outcome
      exact ⟨path, taken, unfit, rfl, passes.symm.trans names, stays (by decide) _⟩

namespace Settings

/-- The parts of the namespace and the other names that a unit uses as identifiers of the code that
it is linked with or that it defines. -/
def codeNames (settings : Settings) : List String :=
  (Identifier.pathParts settings.runtimeNamespace.toList).map String.ofList
    ++ [settings.contextType, settings.contextParam, settings.blockType, settings.blockPrefix,
      settings.handlerPrefix, settings.nextCallTargetSlot, settings.nextTableSlot,
      settings.bytecodeTableName, settings.bootstrapFunction]

/-- All names that a unit uses as identifiers, with the macro of its guard. -/
def usedNames (settings : Settings) : List String :=
  settings.codeNames ++ settings.compiledModeMacro.toList

theorem invalidName?_eq_none_iff_names {settings : Settings} :
    settings.invalidName? = none ↔
      ∀ name ∈ settings.codeNames, Identifier.IsName name.toList := by
  rw [invalidName?_eq_none_iff, codeNames, List.forall_mem_append, List.forall_mem_map]
  apply and_congr
  · rw [isNamespace, Identifier.isPath, List.all_eq_true]
    simp only [String.toList_ofList, Identifier.isValid_iff]
  · simp only [isIdentifier_iff, identifiers]

end Settings

namespace SourceUnit

/-- The lines of the headers, with the empty line behind them. -/
def headerText (settings : Settings) : String :=
  String.join (settings.includes.map fun header => "#include \"" ++ header ++ "\"\n") ++ "\n"

/-- The macro stands in the guard as it is given. -/
theorem preambleText_of_guard {settings : Settings} {guard : String}
    (given : settings.compiledModeMacro = some guard) :
    ∃ below, preambleText settings =
      headerText settings ++ ("#ifndef " ++ guard ++ "\n") ++ below := by
  refine ⟨"    #error " ++ guard ++ " must be set for the entire code base.\n" ++ "#endif\n\n", ?_⟩
  rw [preambleText, given, headerText]
  simp only [String.append_assoc]

end SourceUnit

/-- Every unit begins with its preamble. -/
theorem source_begins {settings : Settings} {program : Program} {compilation : Compilation}
    (compiled : (compile settings program).outcome = .ok compilation) :
    ∃ below, compilation.source = SourceUnit.preambleText settings ++ below := by
  rcases compile_cases (valid_of_compile compiled) program with
    ⟨cause, cut⟩ | ⟨start, count, -, -, whole⟩
  · cases cut.symm.trans compiled
    exact ⟨_, String.append_assoc⟩
  · cases whole.symm.trans compiled
    simp only [SourceUnit.wholeUnit, String.append_assoc]
    exact ⟨_, rfl⟩

/-- The line of the guard follows the headers. -/
theorem source_begins_of_guard {settings : Settings} {program : Program}
    {compilation : Compilation} {guard : String}
    (compiled : (compile settings program).outcome = .ok compilation)
    (given : settings.compiledModeMacro = some guard) :
    ∃ below, compilation.source =
      SourceUnit.headerText settings ++ ("#ifndef " ++ guard ++ "\n") ++ below := by
  obtain ⟨rest, source⟩ := source_begins compiled
  obtain ⟨below, preamble⟩ := SourceUnit.preambleText_of_guard given
  refine ⟨below ++ rest, ?_⟩
  rw [source, preamble, String.append_assoc]

/-- The names that a unit uses are identifiers, exactly if the macro of its guard is one. That one
name stands in the unit as it is given, and a unit is made whatever it is. -/
theorem used_names_identifiers_iff_guard {settings : Settings} {program : Program}
    {compilation : Compilation} (compiled : (compile settings program).outcome = .ok compilation) :
    (∀ name ∈ settings.codeNames, Identifier.IsName name.toList) ∧
    ((∀ name ∈ settings.usedNames, Identifier.IsName name.toList) ↔
      ∀ guard, settings.compiledModeMacro = some guard → Identifier.IsName guard.toList) ∧
    (∀ guard, settings.compiledModeMacro = some guard →
      ∃ below, compilation.source =
        SourceUnit.headerText settings ++ ("#ifndef " ++ guard ++ "\n") ++ below) ∧
    ∀ guard, ∃ other,
      (compile { settings with compiledModeMacro := some guard } program).outcome = .ok other := by
  have valid := valid_of_compile compiled
  have names := Settings.invalidName?_eq_none_iff_names.mp valid
  refine ⟨names, ?_, fun guard given => ?_, fun guard => ?_⟩
  · rw [Settings.usedNames, List.forall_mem_append]
    simp only [Option.mem_toList]
    exact ⟨And.right, And.intro names⟩
  · exact source_begins_of_guard compiled given
  · have unchecked : { settings with compiledModeMacro := some guard }.invalidName? = none := valid
    rcases compile_cases unchecked program with ⟨cause, cut⟩ | ⟨start, count, -, -, whole⟩
    · exact ⟨_, cut⟩
    · exact ⟨_, whole⟩

theorem used_names_identifiers_iff_guard_countingLoop :
    ∃ compilation, (compile {} countingLoop).outcome = .ok compilation ∧
      (∀ name ∈ ({} : Settings).usedNames, Identifier.IsName name.toList) ∧
      ∃ below, compilation.source =
        SourceUnit.headerText {} ++ "#ifndef VM_COMPILED_CODE_MODE\n" ++ below := by
  have compiled :=
    compile_of_written Settings.default_valid countingLoop_clean countingLoop_written
  obtain ⟨-, all, lines, -⟩ := used_names_identifiers_iff_guard compiled
  refine ⟨_, compiled, all.mpr ?_, lines "VM_COMPILED_CODE_MODE" rfl⟩
  rintro guard ⟨⟩
  exact Settings.isIdentifier_iff.mp (by decide)

/-- The macro breaks off its line and goes on with a declaration. -/
def strayGuard : Settings := { compiledModeMacro := some "MODE\nint stray;" }

/-- The declaration is in the unit, and no name is reported. -/
theorem stray_declaration_of_strayGuard :
    ∃ compilation, (compile strayGuard countingLoop).outcome = .ok compilation ∧
      compilation.isUsable = true ∧
      "MODE\nint stray;" ∈ strayGuard.usedNames ∧
      ¬ Identifier.IsName "MODE\nint stray;".toList ∧
      ∃ below, compilation.source =
        SourceUnit.headerText strayGuard ++ "#ifndef MODE\nint stray;\n" ++ below := by
  have valid : strayGuard.invalidName? = none := by decide
  have written :
      (Bodies.items strayGuard countingLoop countingLoop.scan.arena).outcome = .ok 2 := by
    cbv
  have compiled := compile_of_written valid countingLoop_clean written
  have used : "MODE\nint stray;" ∈ strayGuard.usedNames :=
    List.mem_append_right _ List.mem_cons_self
  have unfit : ¬ Identifier.IsName "MODE\nint stray;".toList :=
    fun name => absurd (Settings.isIdentifier_iff.mpr name) (by decide)
  have given : strayGuard.compiledModeMacro = some "MODE\nint stray;" := rfl
  obtain ⟨below, source⟩ := source_begins_of_guard compiled given
  refine ⟨_, compiled, rfl, used, unfit, below, ?_⟩
  rw [source]
  rfl

end ThreadedCode
