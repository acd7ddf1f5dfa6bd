import Mathlib.Data.List.Nodup
import ThreadedCode.Proofs.Routines

/-!
# Reading clauses back

Every clause has a spelling in lexemes, and under valid settings the clause is found again in its
spelling: names of blocks and handlers stand for one block and one opcode each, and no name can be
taken for a mark. A reader of routines takes in clauses with semicolons behind them one by one, and
so it takes in statements, heads and ends of routines.
-/

namespace ThreadedCode

open Lexer

namespace Opcode

theorem mem_all (opcode : Opcode) : opcode ∈ all.toList :=
  Array.mem_toList_iff.mpr (Array.mem_of_getElem? (all_encoding opcode))

theorem names_nodup : (all.toList.map name).Nodup := by
  decide +kernel

theorem isContinue_of_mem_name {opcode : Opcode} {char : Char}
    (member : char ∈ opcode.name.toList) : Identifier.isContinue char = true := by
  have every : all.toList.all
      (fun opcode => opcode.name.toList.all Identifier.isContinue) = true := by
    decide +kernel
  exact List.all_eq_true.mp (List.all_eq_true.mp every opcode opcode.mem_all) char member

end Opcode

namespace Settings

variable {settings : Settings}

theorem isWord_of_mem (valid : settings.invalidName? = none) {name : String}
    (member : name ∈ settings.identifiers) : IsWord name :=
  isWord_of_isValid ((invalidName?_eq_none_iff.mp valid).2 name member)

theorem isWord_blockName (valid : settings.invalidName? = none) (block : Nat) :
    IsWord (settings.blockName block) :=
  (isWord_of_mem valid (by simp [identifiers])).append fun _ => Identifier.isContinue_of_mem_repr

theorem isWord_handler (valid : settings.invalidName? = none) (opcode : Opcode) :
    IsWord (settings.handlerPrefix ++ opcode.name) :=
  (isWord_of_mem valid (by simp [identifiers])).append fun _ => Opcode.isContinue_of_mem_name

theorem not_mem_qualified (valid : settings.invalidName? = none) {name : String}
    (checked : name ∈ settings.identifiers) {char : Char}
    (outside : Identifier.isContinue char = false) (apart : char ≠ ':') :
    char ∉ (settings.qualified name).toList := by
  have path := Identifier.not_mem_of_isPath (invalidName?_eq_none_iff.mp valid).1 outside apart
  have plain := not_mem_name valid outside checked
  simp [qualified, path, plain, apart]

theorem isPlain_qualified (valid : settings.invalidName? = none) {name : String}
    (checked : name ∈ settings.identifiers) : IsPlain (settings.qualified name).toList := by
  intro char member
  simp only [isPlain, Bool.and_eq_true, bne_iff_ne]
  refine ⟨⟨?_, ?_⟩, ?_⟩ <;>
  · rintro rfl
    exact not_mem_qualified valid checked (by decide) (by decide) member

/-- The lexemes of a type have no lexeme of a single mark but colons. -/
theorem mark_not_mem_qualified (valid : settings.invalidName? = none) {name : String}
    (checked : name ∈ settings.identifiers) {char : Char}
    (outside : Identifier.isContinue char = false) (apart : char ≠ ':') :
    String.ofList [char] ∉ Lexer.lexemes (settings.qualified name) := by
  intro member
  exact not_mem_qualified valid checked outside apart
    (mem_of_mem_lexemes (isPlain_qualified valid checked) member (by simp))

theorem blockNamed?_blockName (settings : Settings) (block : Nat) :
    settings.blockNamed? (settings.blockName block) = some block := by
  have digits : (settings.blockName block).toList.drop settings.blockPrefix.length =
      Nat.toDigits 10 block := by
    rw [blockName, String.toList_append, ← String.length_toList, List.drop_left,
      Nat.toString_eq_repr, Nat.toList_repr]
  simp only [blockNamed?, digits, Nat.ofDigitChars_ten_toDigits, if_true]

/-- Different blocks have different names. -/
theorem blockName_injective {settings : Settings} {block other : Nat}
    (same : settings.blockName block = settings.blockName other) : block = other := by
  have named := settings.blockNamed?_blockName block
  rw [same, blockNamed?_blockName] at named
  exact (Option.some.inj named).symm

/-- The name of a block ends with a digit. -/
theorem blockName_ne (settings : Settings) (block : Nat) {name : String}
    (plain : name.toList.getLast?.any Char.isDigit = false) : settings.blockName block ≠ name := by
  rintro rfl
  simp only [blockName, String.toList_append, List.getLast?_append, Nat.toString_eq_repr,
    Nat.toList_repr] at plain
  cases found : (Nat.toDigits 10 block).getLast? with
  | none => exact Nat.toDigits_ne_nil (List.getLast?_eq_none_iff.mp found)
  | some char =>
      have digit := Nat.isDigit_of_mem_toDigits (by decide) (by decide)
        (List.mem_of_getLast? found)
      rw [found, Option.some_or, Option.any_some, digit] at plain
      cases plain

theorem handlerNamed?_handler (settings : Settings) (opcode : Opcode) :
    settings.handlerNamed? (settings.handlerPrefix ++ opcode.name) = some opcode := by
  unfold handlerNamed?
  cases found : Opcode.all.toList.find? fun other =>
      settings.handlerPrefix ++ other.name == settings.handlerPrefix ++ opcode.name with
  | none =>
      have differs := List.find?_eq_none.mp found opcode opcode.mem_all
      exact absurd (beq_self_eq_true _) differs
  | some other =>
      have names : other.name = opcode.name := by simpa using List.find?_some found
      rw [List.inj_on_of_nodup_map Opcode.names_nodup other.mem_all opcode.mem_all names]

end Settings

namespace Clause

theorem number?_repr (number : Nat) : number? (toString number) = some number := by
  simp [number?, Nat.toString_eq_repr, Nat.toList_repr, Nat.ofDigitChars_ten_toDigits]

/-- The lexemes of a word. -/
def wordLexemes (word : Word) : List String :=
  if 0 ≤ word.toInt then [toString word.toInt.toNat] else ["-", toString (-word.toInt).toNat]

theorem word?_wordLexemes (word : Word) : word? (wordLexemes word) = some word := by
  unfold wordLexemes
  by_cases positive : 0 ≤ word.toInt
  · rw [if_pos positive, word?, number?_repr, Option.map_some, Int.toNat_of_nonneg positive,
      Int32.ofInt_toInt]
  · rw [if_neg positive, word?, number?_repr, Option.map_some, Int.toNat_of_nonneg (by omega),
      Int.neg_neg, Int32.ofInt_toInt]

theorem mark_not_mem_wordLexemes {char : Char} (outside : Identifier.isContinue char = false)
    (apart : "-" ≠ String.ofList [char]) (word : Word) :
    String.ofList [char] ∉ wordLexemes word := by
  have digits := fun number => ((isWord_repr number).ne_mark char outside).symm
  unfold wordLexemes
  split
  · intro member
    exact digits _ (List.mem_singleton.mp member)
  · intro member
    rcases List.mem_cons.mp member with minus | member
    · exact apart minus.symm
    · exact digits _ (List.mem_singleton.mp member)

theorem reads_word {depth : Nat} (word : Word) :
    ReadsApart depth word.text (wordLexemes word) := by
  rw [Word.text, Int.toString_eq_repr, Int.repr_eq_if]
  unfold wordLexemes
  split
  · exact (isWord_repr _).reads
  · have minus : Reads depth "-" ["-"] := IsClosed.reads (by decide)
    exact minus.append_apart (isWord_repr _).reads

@[simp] theorem before?_concat {α : Type} [DecidableEq α] (items : List α) (last : α) :
    before? last (items ++ [last]) = some items := by
  simp [before?]

theorem mapM_map_eq {α : Type} {item? : List String → Option α} {spell : α → List String}
    (reads : ∀ item, item? (spell item) = some item) (items : List α) :
    (items.map spell).mapM item? = some items := by
  have each : item? ∘ spell = pure := funext reads
  rw [List.mapM_map, each]
  exact (List.mapM_pure).trans (congrArg some (List.map_id items))

/-- Entries in braces are found again, if they are not empty and hold no comma. -/
theorem entries?_intercalate {α : Type} {item? : List String → Option α}
    {spell : α → List String} (reads : ∀ item, item? (spell item) = some item)
    (filled : ∀ item, spell item ≠ []) (plain : ∀ item, "," ∉ spell item) (items : List α) :
    entries? item? ("\x7b" :: ([","].intercalate (items.map spell) ++ ["\x7d"])) = some items := by
  rw [entries?, before?_concat, Option.bind_eq_bind, Option.bind_some]
  cases items with
  | nil => rfl
  | cons item rest =>
      have listed : [","].intercalate ((item :: rest).map spell) ≠ [] := by
        cases rest with
        | nil => simpa using filled item
        | cons next others => simp [List.intercalate_cons_cons]
      have apart : ∀ entry ∈ (item :: rest).map spell, "," ∉ entry := by
        intro entry member
        obtain ⟨other, -, rfl⟩ := List.mem_map.mp member
        exact plain other
      rw [if_neg (by simpa using listed), List.splitOn_intercalate "," apart (by simp),
        mapM_map_eq reads]

/-- The lexemes of a value. -/
def valueLexemes (settings : Settings) : Value → List String
  | .null => ["nullptr"]
  | .block target => ["(", "void", "*", ")", settings.blockName target]
  | .slot =>
    ["(", "void", "*", ")", settings.contextParam, ".", settings.nextCallTargetSlot]

/-- The lexemes of a condition. -/
def conditionLexemes (settings : Settings) : Condition → List String
  | .handler opcode =>
    [settings.contextParam, ".", settings.handlerPrefix ++ opcode.name, "(", ")"]
  | .slot => [settings.contextParam, ".", settings.nextCallTargetSlot]

/-- The lexemes of a clause. -/
def lexemes (settings : Settings) : Clause → List String
  | .words content =>
    "static" :: (["const", "int", "args"] ++ "[" :: "]" :: "=" :: "\x7b"
      :: ([","].intercalate (content.map wordLexemes) ++ ["\x7d"]))
  | .table blocks =>
    "static" :: (Lexer.lexemes settings.qualifiedBlockType ++ ["mmtable"] ++ "[" :: "]" :: "="
      :: "\x7b" :: ([","].intercalate (blocks.map fun block => [settings.blockName block])
        ++ ["\x7d"]))
  | .storeTable => [settings.contextParam, ".", settings.nextTableSlot, "=", "mmtable"]
  | .storeBlock block =>
    [settings.contextParam, ".", settings.nextCallTargetSlot, "=", settings.blockName block]
  | .call opcode passesWords continuation =>
    [settings.contextParam, ".", settings.handlerPrefix ++ opcode.name, "(",
      if passesWords then "args" else "nullptr"]
      ++ (continuation.map fun block => [",", settings.blockName block]).getD [] ++ [")"]
  | .leave value => "return" :: valueLexemes settings value
  | .leaveIf condition value =>
    "if" :: "(" :: (conditionLexemes settings condition ++ ")" :: "return"
      :: valueLexemes settings value)

theorem value?_valueLexemes (settings : Settings) (value : Value) :
    value? settings (valueLexemes settings value) = some value := by
  cases value with
  | null => rfl
  | block target => simp [valueLexemes, value?, Settings.blockNamed?_blockName]
  | slot => simp [valueLexemes, value?]

theorem guarded?_lexemes (settings : Settings) (condition : Condition) (value : Value) :
    guarded? settings (conditionLexemes settings condition ++ ")" :: "return"
      :: valueLexemes settings value) = some (.leaveIf condition value) := by
  cases condition with
  | handler opcode =>
      simp [conditionLexemes, guarded?, Settings.handlerNamed?_handler, value?_valueLexemes]
  | slot => simp [conditionLexemes, guarded?, value?_valueLexemes]

theorem array?_words (settings : Settings) (content : List Word) :
    array? settings (["const", "int", "args"] ++ "[" :: "]" :: "=" :: "\x7b"
      :: ([","].intercalate (content.map wordLexemes) ++ ["\x7d"])) = some (.words content) := by
  have filled : ∀ word, wordLexemes word ≠ [] := by
    intro word
    unfold wordLexemes
    split <;> simp
  have found := entries?_intercalate word?_wordLexemes filled
    (mark_not_mem_wordLexemes (by decide) (by decide)) content
  simp [array?, found]

/-- The type of a block pointer has no lexeme of a single mark but colons. -/
theorem mark_not_mem_type {settings : Settings} (valid : settings.invalidName? = none) {char : Char}
    (outside : Identifier.isContinue char = false) (apart : char ≠ ':') :
    String.ofList [char] ∉ Lexer.lexemes settings.qualifiedBlockType :=
  Settings.mark_not_mem_qualified valid (by simp [Settings.identifiers]) outside apart

theorem array?_table {settings : Settings} (valid : settings.invalidName? = none)
    (blocks : List Nat) :
    array? settings (Lexer.lexemes settings.qualifiedBlockType ++ ["mmtable"] ++ "[" :: "]" :: "="
      :: "\x7b" :: ([","].intercalate (blocks.map fun block => [settings.blockName block])
        ++ ["\x7d"])) = some (.table blocks) := by
  have plain : ∀ block, "," ∉ [settings.blockName block] := fun block member =>
    (Settings.isWord_blockName valid block).ne_mark ',' (by decide)
      (List.mem_singleton.mp member).symm
  have named : ∀ block, block? settings [settings.blockName block] = some block :=
    Settings.blockNamed?_blockName settings
  have found := entries?_intercalate named (fun _ => List.cons_ne_nil _ _) plain blocks
  have declared : ∀ lexeme ∈ Lexer.lexemes settings.qualifiedBlockType ++ ["mmtable"],
      (lexeme != "[") = true := by
    intro lexeme member
    rw [bne_iff_ne]
    rintro rfl
    rcases List.mem_append.mp member with type | name
    · exact mark_not_mem_type valid (by decide) (by decide) type
    · exact absurd (List.mem_singleton.mp name) (by decide)
  -- whatever the type is, the name of the array tells
  have differs : Lexer.lexemes settings.qualifiedBlockType ++ ["mmtable"] ≠
      ["const", "int", "args"] := by
    intro same
    have last := congrArg List.getLast? same
    rw [List.getLast?_concat] at last
    exact absurd last (by decide)
  unfold array?
  rw [List.takeWhile_append_of_pos declared, List.dropWhile_append_of_pos declared]
  simp [found, differs]

/-- A clause is found again in its lexemes. -/
theorem clause?_lexemes {settings : Settings} (valid : settings.invalidName? = none)
    (clause : Clause) : clause? settings (clause.lexemes settings) = some clause := by
  cases clause with
  | words content => exact array?_words settings content
  | table blocks =>
      rw [lexemes, clause?, array?_table valid]
      -- the type would have to begin with a dot to be taken for a member
      intro tail same
      have absent : "." ∉ Lexer.lexemes settings.qualifiedBlockType :=
        mark_not_mem_type valid (by decide) (by decide)
      cases type : Lexer.lexemes settings.qualifiedBlockType with
      | nil => simp [type] at same
      | cons first rest =>
          rw [type] at same absent
          exact absent (by simp [(List.cons.inj same).1])
  | storeTable => simp [lexemes, clause?, member?]
  | storeBlock block =>
      have noTable : settings.blockName block ≠ "mmtable" :=
        Settings.blockName_ne settings block (by decide)
      simp [lexemes, clause?, member?, noTable, Settings.blockNamed?_blockName]
  | call opcode passesWords continuation =>
      have argument : argument? (if passesWords then "args" else "nullptr") = some passesWords := by
        cases passesWords <;> rfl
      cases continuation with
      | none => simp [lexemes, clause?, member?, argument, Settings.handlerNamed?_handler]
      | some block =>
          simp [lexemes, clause?, member?, argument, Settings.handlerNamed?_handler,
            Settings.blockNamed?_blockName]
  | leave value =>
      have found := value?_valueLexemes settings value
      cases value <;> exact congrArg (Option.map Clause.leave) found
  | leaveIf condition value => exact guarded?_lexemes settings condition value

theorem not_mem_intercalate_comma {lexeme : String} (comma : lexeme ≠ ",")
    {entries : List (List String)} (absent : ∀ entry ∈ entries, lexeme ∉ entry) :
    lexeme ∉ [","].intercalate entries := by
  induction entries with
  | nil => exact List.not_mem_nil
  | cons entry rest ih =>
      rw [List.forall_mem_cons] at absent
      cases rest with
      | nil => simpa using absent.1
      | cons next others =>
          rw [List.intercalate_cons_cons, List.mem_append, List.mem_append, not_or, not_or]
          exact ⟨⟨absent.1, fun member => comma (List.mem_singleton.mp member)⟩, ih absent.2⟩

/-- No clause holds the semicolon that ends it. -/
theorem semicolon_not_mem_lexemes {settings : Settings} (valid : settings.invalidName? = none)
    (clause : Clause) : ";" ∉ clause.lexemes settings := by
  have block := fun block => ((Settings.isWord_blockName valid block).ne_mark ';' (by decide)).symm
  have handler := fun opcode =>
    ((Settings.isWord_handler valid opcode).ne_mark ';' (by decide)).symm
  have name {name : String} (member : name ∈ settings.identifiers) : ";" ≠ name :=
    ((Settings.isWord_of_mem valid member).ne_mark ';' (by decide)).symm
  have context : ";" ≠ settings.contextParam := name (by simp [Settings.identifiers])
  have target : ";" ≠ settings.nextCallTargetSlot := name (by simp [Settings.identifiers])
  have table : ";" ≠ settings.nextTableSlot := name (by simp [Settings.identifiers])
  have value (value : Value) : ";" ∉ valueLexemes settings value := by
    cases value <;> simp [valueLexemes, context, target, block]
  cases clause with
  | words content =>
      have entries : ";" ∉ [","].intercalate (content.map wordLexemes) := by
        apply not_mem_intercalate_comma (by decide)
        intro entry member
        obtain ⟨word, -, rfl⟩ := List.mem_map.mp member
        exact mark_not_mem_wordLexemes (by decide) (by decide) word
      simp [lexemes, entries]
  | table blocks =>
      have entries :
          ";" ∉ [","].intercalate (blocks.map fun block => [settings.blockName block]) := by
        apply not_mem_intercalate_comma (by decide)
        intro entry member found
        obtain ⟨target, -, rfl⟩ := List.mem_map.mp member
        exact block target (List.mem_singleton.mp found)
      have type : ";" ∉ Lexer.lexemes settings.qualifiedBlockType :=
        mark_not_mem_type valid (by decide) (by decide)
      simp [lexemes, entries, type]
  | storeTable => simp [lexemes, context, table]
  | storeBlock other => simp [lexemes, context, target, block]
  | call opcode passesWords continuation =>
      cases continuation <;> cases passesWords <;> simp [lexemes, context, handler, block]
  | leave result => simp [lexemes, value]
  | leaveIf condition result =>
      cases condition <;> simp [lexemes, conditionLexemes, context, target, handler, value]

/-- The lexemes of clauses, each with a semicolon behind it. -/
def spelled (settings : Settings) (clauses : List Clause) : List String :=
  clauses.flatMap fun clause => clause.lexemes settings ++ [";"]

/-- A clause begins with a word. -/
theorem lexemes_eq_cons {settings : Settings} (valid : settings.invalidName? = none)
    (clause : Clause) : ∃ first rest, clause.lexemes settings = first :: rest ∧ IsWord first := by
  have context := Settings.isWord_of_mem valid
    (show settings.contextParam ∈ settings.identifiers by simp [Settings.identifiers])
  cases clause with
  | words _ | table _ | leave _ | leaveIf _ _ => exact ⟨_, _, rfl, isWord_of_isValid (by decide)⟩
  | storeTable | storeBlock _ | call _ _ _ => exact ⟨_, _, rfl, context⟩

end Clause

namespace Routine

/-- Reading the lexemes leads from one place to the other. -/
def Leads (settings : Settings) (before : Progress) (lexemes : List String) (after : Progress) :
    Prop :=
  lexemes.foldlM (step settings) before = some after

/-- The lexemes of the signature of a block. -/
def headLexemes (settings : Settings) (block : Nat) : List String :=
  ["static", "void", "*", settings.blockName block, "("]
    ++ Lexer.lexemes settings.qualifiedContextType ++ ["&", settings.contextParam, ")"]

section Leads

variable {settings : Settings} {routines : List Routine} {name : String}
  {statements : List (List Clause)} {braces : Option (List Clause)} {begun : List String}

theorem leads_nil (settings : Settings) (place : Progress) : Leads settings place [] place := rfl

theorem Leads.append {first middle last : Progress} {lexemes more : List String}
    (leads : Leads settings first lexemes middle) (follows : Leads settings middle more last) :
    Leads settings first (lexemes ++ more) last := by
  rw [Leads, List.foldlM_append, leads]
  exact follows

theorem leads_single {before after : Progress} {lexeme : String}
    (stepped : step settings before lexeme = some after) :
    Leads settings before [lexeme] after := by
  simp [Leads, stepped]

/-- A lexeme that ends no clause belongs to the clause, unless it is a brace in front of one. -/
theorem step_word {lexeme : String} (inner : lexeme ≠ ";")
    (within : begun = [] → lexeme ≠ "\x7b" ∧ lexeme ≠ "\x7d") :
    step settings ⟨routines, .inside name statements braces begun⟩ lexeme =
      some ⟨routines, .inside name statements braces (begun ++ [lexeme])⟩ := by
  simp only [step]
  unfold stepInside
  split <;> simp_all

/-- All lexemes up to the semicolon belong to the clause. -/
theorem leads_words {lexemes : List String} (inner : ";" ∉ lexemes)
    (within : begun = [] → lexemes.head? ≠ some "\x7b" ∧ lexemes.head? ≠ some "\x7d") :
    Leads settings ⟨routines, .inside name statements braces begun⟩ lexemes
      ⟨routines, .inside name statements braces (begun ++ lexemes)⟩ := by
  induction lexemes generalizing begun with
  | nil =>
      rw [List.append_nil]
      exact leads_nil _ _
  | cons lexeme rest ih =>
      rw [List.mem_cons, not_or] at inner
      have first : step settings ⟨routines, .inside name statements braces begun⟩ lexeme =
          some ⟨routines, .inside name statements braces (begun ++ [lexeme])⟩ := by
        apply step_word (Ne.symm inner.1)
        intro empty
        simpa using within empty
      have others : Leads settings
          ⟨routines, .inside name statements braces (begun ++ [lexeme])⟩ rest
          ⟨routines, .inside name statements braces (begun ++ [lexeme] ++ rest)⟩ :=
        ih inner.2 (by simp)
      rw [List.append_assoc] at others
      exact (leads_single first).append others

variable (valid : settings.invalidName? = none)
include valid

/-- The lexemes of a clause are taken in as a whole. -/
theorem leads_lexemes (clause : Clause) :
    Leads settings ⟨routines, .inside name statements braces []⟩ (clause.lexemes settings)
      ⟨routines, .inside name statements braces (clause.lexemes settings)⟩ := by
  obtain ⟨first, rest, spelled, word⟩ := clause.lexemes_eq_cons valid
  apply leads_words (Clause.semicolon_not_mem_lexemes valid clause)
  intro _
  rw [spelled, List.head?_cons]
  exact ⟨fun opens => word.ne_mark '\x7b' (by decide) (Option.some.inj opens),
    fun closes => word.ne_mark '\x7d' (by decide) (Option.some.inj closes)⟩

/-- In braces clauses are taken in one by one. -/
theorem leads_spelled (before clauses : List Clause) :
    Leads settings ⟨routines, .inside name statements (some before) []⟩
      (Clause.spelled settings clauses)
      ⟨routines, .inside name statements (some (before ++ clauses)) []⟩ := by
  induction clauses generalizing before with
  | nil =>
      rw [List.append_nil]
      exact leads_nil _ _
  | cons clause rest ih =>
      have ends : step settings
          ⟨routines, .inside name statements (some before) (clause.lexemes settings)⟩ ";" =
            some ⟨routines, .inside name statements (some (before ++ [clause])) []⟩ := by
        simp [step, stepInside, Clause.clause?_lexemes valid]
      have others := ih (before ++ [clause])
      rw [List.append_assoc] at others
      rw [Clause.spelled, List.flatMap_cons]
      exact ((leads_lexemes valid clause).append (leads_single ends)).append others

/-- Clauses in braces are a statement. -/
theorem leads_braced (clauses : List Clause) :
    Leads settings ⟨routines, .inside name statements none []⟩
      (["\x7b"] ++ Clause.spelled settings clauses ++ ["\x7d"])
      ⟨routines, .inside name (statements ++ [clauses]) none []⟩ := by
  have opens : step settings ⟨routines, .inside name statements none []⟩ "\x7b" =
      some ⟨routines, .inside name statements (some []) []⟩ := rfl
  have closes : step settings ⟨routines, .inside name statements (some clauses) []⟩ "\x7d" =
      some ⟨routines, .inside name (statements ++ [clauses]) none []⟩ := rfl
  exact ((leads_single opens).append (leads_spelled valid [] clauses)).append (leads_single closes)

/-- A clause that declares nothing is a statement. -/
theorem leads_plain {clause : Clause} (plain : clause.declares = false) :
    Leads settings ⟨routines, .inside name statements none []⟩ (Clause.spelled settings [clause])
      ⟨routines, .inside name (statements ++ [[clause]]) none []⟩ := by
  have ends : step settings
      ⟨routines, .inside name statements none (clause.lexemes settings)⟩ ";" =
        some ⟨routines, .inside name (statements ++ [[clause]]) none []⟩ := by
    simp [step, stepInside, Clause.clause?_lexemes valid, plain]
  rw [Clause.spelled, List.flatMap_singleton]
  exact (leads_lexemes valid clause).append (leads_single ends)

omit valid in
/-- Outside of routines all lexemes up to a brace belong to a head. -/
theorem leads_outside {lexemes : List String} (inner : "\x7b" ∉ lexemes) (head : List String) :
    Leads settings ⟨routines, .outside head⟩ lexemes ⟨routines, .outside (head ++ lexemes)⟩ := by
  induction lexemes generalizing head with
  | nil =>
      rw [List.append_nil]
      exact leads_nil _ _
  | cons lexeme rest ih =>
      rw [List.mem_cons, not_or] at inner
      have first : step settings ⟨routines, .outside head⟩ lexeme =
          some ⟨routines, .outside (head ++ [lexeme])⟩ := by
        simp [step, Ne.symm inner.1]
      have others := ih inner.2 (head ++ [lexeme])
      rw [List.append_assoc] at others
      exact (leads_single first).append others

theorem brace_not_mem_headLexemes (block : Nat) : "\x7b" ∉ headLexemes settings block := by
  have outside : Identifier.isContinue '\x7b' = false := by decide
  have name := ((Settings.isWord_blockName valid block).ne_mark '\x7b' outside).symm
  have parameter := ((Settings.isWord_of_mem valid
    (show settings.contextParam ∈ settings.identifiers by simp [Settings.identifiers])).ne_mark
      '\x7b' outside).symm
  have type : "\x7b" ∉ Lexer.lexemes settings.qualifiedContextType :=
    Settings.mark_not_mem_qualified valid (by simp [Settings.identifiers]) outside (by decide)
  simp only [headLexemes, List.mem_append, List.mem_cons, List.not_mem_nil, or_false, not_or]
  exact ⟨⟨⟨by decide, by decide, by decide, name, by decide⟩, type⟩, by decide, parameter,
    by decide⟩

/-- A signature in front of a brace begins a routine. -/
theorem leads_head (block : Nat) :
    Leads settings ⟨routines, .outside []⟩ (headLexemes settings block ++ ["\x7b"])
      ⟨routines, .inside (settings.blockName block) [] none []⟩ := by
  have named : head? settings (headLexemes settings block) = some (settings.blockName block) :=
    if_pos rfl
  have opens : step settings ⟨routines, .outside (headLexemes settings block)⟩ "\x7b" =
      some ⟨routines, .inside (settings.blockName block) [] none []⟩ := by
    simp [step, named]
  exact (leads_outside (brace_not_mem_headLexemes valid block) []).append (leads_single opens)

end Leads

end Routine

end ThreadedCode
