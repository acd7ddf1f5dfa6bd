import Mathlib.Data.List.Forall2
import ThreadedCode.Proofs.Compilation
import ThreadedCode.Proofs.InstructionMeaning
import ThreadedCode.Proofs.NoteErasure
import ThreadedCode.Proofs.TwoRuns

/-!
# Names only annotate

Two programs with the same stream and the same function starts may have any names for functions,
strings, variables and built-ins, as long as the built-in that resumes a coroutine is the same.
Their bodies are written in the same way and with the same result. The only difference is in the
notes of handler calls: without these, every line is the same.
-/

namespace ThreadedCode

/-- The statement without its note. -/
def Statement.bare : Statement → Statement
  | .call handler => .call handler.bare
  | statement => statement

theorem Statement.leaves_bare (statement : Statement) :
    statement.bare.leaves = statement.leaves := by
  cases statement <;> rfl

/-- The programs differ in their names at most, and not in which built-in resumes a coroutine. -/
structure Program.SameButNames (settings : Settings) (program other : Program) : Prop where
  code : program.code = other.code
  functionAt : ∀ offset, program.functionAt offset = other.functionAt offset
  resumes : ∀ index, program.builtinName index = some settings.resumeBuiltin ↔
    other.builtinName index = some settings.resumeBuiltin

namespace Lowering

variable {settings : Settings} {program other : Program}

theorem resumes_eq (same : program.SameButNames settings other) (operands : List Word) :
    resumes settings program operands = resumes settings other operands := by
  unfold resumes
  rw [Bool.eq_iff_iff, beq_iff_eq, beq_iff_eq]
  cases operands[0]?.bind Word.index? with
  | none => exact Iff.rfl
  | some index => exact same.resumes index

/-- Nothing but the note of a call depends on names. -/
theorem call_bare (same : program.SameButNames settings other) (arena : Arena) (block : Nat)
    (instruction : Instruction) (operands : List Word) :
    HandlerCall.bare <$> call settings program arena block instruction operands =
      HandlerCall.bare <$> call settings other arena block instruction operands := by
  have stores : store settings program arena instruction operands =
      store settings other arena instruction operands := by
    unfold store
    rw [resumes_eq same]
  simp only [call, stores, Trace.map_bind]
  rfl

theorem statement_bare (same : program.SameButNames settings other) (arena : Arena) (block : Nat)
    (instruction : Instruction) :
    Statement.bare <$> statement settings program arena block instruction =
      Statement.bare <$> statement settings other arena block instruction := by
  have calls (operands : List Word) :
      Statement.bare <$> Statement.call <$>
          call settings program arena block instruction operands =
        Statement.bare <$> Statement.call <$>
          call settings other arena block instruction operands := by
    have lifted := congrArg (Statement.call <$> ·)
      (call_bare same arena block instruction operands)
    simp only [Trace.map_map] at lifted ⊢
    exact lifted
  simp only [statement, Trace.map_bind, same.code]
  cases instruction.opcode.flow <;> simp only [calls]

end Lowering

namespace Trace

variable {ι ε δ α β γ η : Type}

/-- The traces emit related things one by one, and end in the same way as far as `view` shows. -/
structure Matches (related : ι → ι → Prop) (view : α → γ) (left right : Trace ι ε α) : Prop where
  emitted : List.Forall₂ related left.emitted right.emitted
  outcome : left.outcome.map view = right.outcome.map view

namespace Matches

variable {related : ι → ι → Prop} {view : α → γ} {left right : Trace ι ε α}

theorem bind {lookAt : β → η} {next nextRight : α → Trace ι ε β}
    (first : Matches related view left right)
    (rest : ∀ value other, view value = view other →
      Matches related lookAt (next value) (nextRight other)) :
    Matches related lookAt (left >>= next) (right >>= nextRight) := by
  obtain ⟨items, outcome⟩ := left
  obtain ⟨others, ending⟩ := right
  obtain ⟨emitted, same⟩ := first
  cases outcome with
  | error cause =>
      cases ending with
      | error cause =>
          cases same
          exact ⟨emitted, rfl⟩
      | ok other => cases same
  | ok value =>
      cases ending with
      | error cause => cases same
      | ok other =>
          have following := rest value other (Except.ok.inj same)
          exact ⟨List.rel_append emitted following.emitted, following.outcome⟩

theorem mapError (f : ε → δ) (first : Matches related view left right) :
    Matches related view (left.mapError f) (right.mapError f) := by
  obtain ⟨items, outcome⟩ := left
  obtain ⟨others, ending⟩ := right
  obtain ⟨emitted, same⟩ := first
  refine ⟨emitted, ?_⟩
  cases outcome with
  | error cause =>
      cases ending with
      | error cause =>
          cases same
          rfl
      | ok other => cases same
  | ok value =>
      cases ending with
      | error cause => cases same
      | ok other => exact congrArg Except.ok (Except.ok.inj same)

end Matches

end Trace

/-- Every statement that is emitted keeps its note inside the comment. -/
theorem Bodies.Emitted.guarded {settings : Settings} {program : Program} {arena : Arena}
    {visits : List Visit} {statement : Statement}
    (emitted : Emitted settings program arena visits (.line statement)) : statement.Guarded := by
  cases emitted with
  | lowered found => exact Lowering.statement_guarded found
  | goto block => trivial
  | halt => trivial

/-- The item without its note. -/
abbrev Item.bare : Item → Item := Item.mapStatement Statement.bare

/-- Items that are the same without notes are the same, unless they are handler calls. -/
theorem Item.eq_or_call_of_bare {item other : Item} (same : item.bare = other.bare) :
    item = other ∨ ∃ call second : HandlerCall, item = .line (.call call) ∧
      other = .line (.call second) ∧ call.bare = second.bare := by
  cases item <;> cases other <;> try cases same
  case line.line statement second =>
    have inner : statement.bare = second.bare := Item.line.inj same
    cases statement <;> cases second <;> try cases inner
    case call.call call second => exact Or.inr ⟨call, second, rfl, rfl, Statement.call.inj inner⟩
    all_goals exact Or.inl rfl
  all_goals exact Or.inl rfl

/-- What is written on a page for a handler call. -/
def HandlerCall.written (settings : Settings) (page : Page) (call : HandlerCall) : String :=
  (page.fresh.write (call.render settings ++ "\n")).text

/-- The events are the same, or both are the line of a handler call, and the lines are the same
without their first comments, both as they are made and as they are written. -/
inductive Event.SameButNote (settings : Settings) : Event → Event → Prop
  | same (event : Event) : SameButNote settings event event
  | call (page : Page) {call other : HandlerCall}
      (line : Comment.erase (call.render settings) = Comment.erase (other.render settings))
      (written : Comment.erase (call.written settings page) =
        Comment.erase (other.written settings page)) :
      SameButNote settings (.text (call.written settings page))
        (.text (other.written settings page))

namespace HandlerCall

variable {settings : Settings} {call : HandlerCall}

theorem erase_render (valid : settings.invalidName? = none) (guarded : call.Guarded) :
    Comment.erase (call.render settings) = call.bare.render settings := by
  have erased := erase_inlineText valid guarded 0 false (show '/' ∉ "".toList by decide)
  simpa [Page.inlineText] using erased

theorem erase_written (valid : settings.invalidName? = none) (guarded : call.Guarded)
    (page : Page) :
    Comment.erase (call.written settings page) = call.bare.written settings page := by
  rw [written, written, Page.write_text, Page.write_text]
  exact erase_inlineText valid guarded page.depth page.midLine (by decide)

end HandlerCall

namespace Item

variable {settings : Settings}

theorem print_call (settings : Settings) (page : Page) (call : HandlerCall) :
    print settings page (.line (.call call)) =
      ⟨[.text (call.written settings page)],
        .ok ⟨call.written settings page, page.depth, false⟩⟩ := by
  rw [print_of_write page rfl (Page.endsLine_newline _) (Page.newline_ne_empty _),
    HandlerCall.written, Page.write_text]
  rfl

/-- What is printed depends on where the page stands, and not on what is on it. -/
theorem print_congr {item : Item} (written : ∀ content, item ≠ .notice content)
    {page second : Page} (alike : page.fresh = second.fresh) :
    print settings page item = print settings second item := by
  rw [print, print, alike]
  · exact written
  · exact written

/-- Printing items that are the same without notes, on pages that stand alike. -/
theorem print_matches (valid : settings.invalidName? = none) {item other : Item}
    (same : item.bare = other.bare)
    (guarded : ∀ statement, item = .line statement ∨ other = .line statement → statement.Guarded)
    {page second : Page} (alike : page.fresh = second.fresh) :
    Trace.Matches (Event.SameButNote settings) Page.fresh (print settings page item)
      (print settings second other) := by
  rcases eq_or_call_of_bare same with rfl | ⟨call, another, rfl, rfl, bare⟩
  · by_cases notice : ∃ content, item = .notice content
    · obtain ⟨content, rfl⟩ := notice
      exact ⟨.cons (.same _) .nil, congrArg Except.ok alike⟩
    · rw [print_congr (fun content same => notice ⟨content, same⟩) alike]
      exact ⟨List.forall₂_same.mpr fun event _ => .same event, rfl⟩
  · have depth : page.fresh.depth = second.fresh.depth := congrArg Page.depth alike
    have moved : another.written settings second = another.written settings page := by
      rw [HandlerCall.written, HandlerCall.written, alike]
    have line := (call.erase_render valid (guarded (.call call) (Or.inl rfl))).trans
      (bare ▸ (another.erase_render valid (guarded (.call another) (Or.inr rfl))).symm)
    have written := (call.erase_written valid (guarded (.call call) (Or.inl rfl)) page).trans
      (bare ▸ (another.erase_written valid (guarded (.call another) (Or.inr rfl)) page).symm)
    rw [print_call, print_call, moved]
    refine ⟨.cons (.call page line written) .nil, ?_⟩
    exact congrArg (fun depth => Except.ok (⟨"", depth, false⟩ : Page)) depth

/-- Printing lists of such items. -/
theorem printAll_matches (valid : settings.invalidName? = none) {items others : List Item}
    (same : items.map bare = others.map bare)
    (guarded : ∀ statement, .line statement ∈ items ∨ .line statement ∈ others →
      statement.Guarded) {page second : Page} (alike : page.fresh = second.fresh) :
    Trace.Matches (Event.SameButNote settings) Page.fresh (printAll settings page items)
      (printAll settings second others) := by
  induction items generalizing others page second with
  | nil =>
      rw [List.map_eq_nil_iff.mp same.symm]
      exact ⟨.nil, congrArg Except.ok alike⟩
  | cons item rest ih =>
      obtain ⟨other, following, rfl, first, later⟩ := List.map_eq_cons_iff.mp same.symm
      refine (print_matches valid first.symm ?_ alike).bind fun after behind moved => ?_
      · rintro statement (rfl | rfl)
        · exact guarded statement (Or.inl List.mem_cons_self)
        · exact guarded statement (Or.inr List.mem_cons_self)
      · apply ih later.symm _ moved
        intro statement member
        exact guarded statement
          (member.imp (List.mem_cons_of_mem item) (List.mem_cons_of_mem other))

end Item

/-- Two programs that differ in their names at most have their bodies written with the same result,
and event by event the same but for the notes of handler calls. A note is all that the first comment
of a line is, and without it the line begins no comment. -/
theorem names_only_annotate {settings : Settings} (valid : settings.invalidName? = none)
    {program other : Program} (same : program.SameButNames settings other) (page : Page)
    (arena : Arena) :
    (Bodies.generateOn page settings program arena).outcome.map Prod.fst =
        (Bodies.generateOn page settings other arena).outcome.map Prod.fst ∧
      List.Forall₂ (Event.SameButNote settings)
        (Bodies.generateOn page settings program arena).emitted
        (Bodies.generateOn page settings other arena).emitted ∧
      ∀ written ∈ [program, other], ∀ call,
        Item.line (.call call) ∈ (Bodies.items settings written arena).emitted →
          Comment.erase (call.render settings) = call.bare.render settings ∧
            ¬Comment.Begins (call.bare.render settings) ∧
            (call.note = none → ¬Comment.Begins (call.render settings)) := by
  have alike : Bodies.Alike Statement.bare settings arena program other :=
    ⟨same.code, same.functionAt, Statement.leaves_bare, Lowering.statement_bare same arena⟩
  have emitted := congrArg Trace.emitted alike.items
  have outcomes := congrArg Trace.outcome alike.items
  rw [Trace.outcome_mapEmitted, Trace.outcome_mapEmitted] at outcomes
  have guarded : ∀ statement, .line statement ∈ (Bodies.items settings program arena).emitted ∨
      .line statement ∈ (Bodies.items settings other arena).emitted → statement.Guarded :=
    fun statement member => member.elim (fun left => (Bodies.emitted_of_mem_items left).guarded)
      fun right => (Bodies.emitted_of_mem_items right).guarded
  have generated : Trace.Matches (Event.SameButNote settings) Prod.fst
      (Bodies.generateOn page settings program arena)
      (Bodies.generateOn page settings other arena) := by
    have printed := Item.printAll_matches valid emitted guarded (Eq.refl page.fresh)
    refine (printed.mapError Failure.page).bind fun after behind _ => ?_
    rw [outcomes]
    cases (Bodies.items settings other arena).outcome with
    | error cause => exact ⟨.nil, rfl⟩
    | ok count => exact ⟨.nil, rfl⟩
  refine ⟨generated.outcome, generated.emitted, ?_⟩
  intro written _ call member
  have guarded : call.Guarded := (Bodies.emitted_of_mem_items member).guarded
  have plain := Comment.not_begins (call.slash_not_mem_render_bare valid)
  refine ⟨call.erase_render valid guarded, plain, fun none => ?_⟩
  rwa [call.bare_of_note_eq_none none] at plain

/-- Calls a built-in that resumes a coroutine and one that does not, and pushes a variable and a
string. All names but that of the first built-in try to end the comments they are put in. -/
def commentEnders : Program :=
  { Program.bare #[90, 2, 65, 0, 65, 1, 6, 3, 4, 0, 98] (· == 2) [] with
    builtinName := fun index => if index = 0 then some "resume" else some "stop */"
    identifier := fun _ => some "*/ x();\n/*"
    string := fun _ => some "**//" }

/-- The same without names, but for that of the built-in that resumes a coroutine. -/
def namesStripped : Program :=
  { Program.bare #[90, 2, 65, 0, 65, 1, 6, 3, 4, 0, 98] (· == 2) [] with
    builtinName := fun index => if index = 0 then some "resume" else none }

theorem names_only_annotate_commentEnders :
    commentEnders.SameButNames {} namesStripped ∧
      (Bodies.items {} commentEnders commentEnders.scan.arena).outcome = .ok 1 ∧
      Item.line (.call ⟨.pushVar, [3], none, none, some "* / x();\n/*", .stay⟩) ∈
        (Bodies.items {} commentEnders commentEnders.scan.arena).emitted ∧
      (Bodies.generateOn .blank {} commentEnders commentEnders.scan.arena).outcome.map Prod.fst =
        (Bodies.generateOn .blank {} namesStripped commentEnders.scan.arena).outcome.map Prod.fst ∧
      List.Forall₂ (Event.SameButNote {})
        (Bodies.generateOn .blank {} commentEnders commentEnders.scan.arena).emitted
        (Bodies.generateOn .blank {} namesStripped commentEnders.scan.arena).emitted ∧
      ∀ written ∈ [commentEnders, namesStripped], ∀ call,
        Item.line (.call call) ∈
            (Bodies.items {} written commentEnders.scan.arena).emitted →
          Comment.erase (call.render {}) = call.bare.render {} ∧
            ¬Comment.Begins (call.bare.render {}) ∧
            (call.note = none → ¬Comment.Begins (call.render {})) := by
  have same : commentEnders.SameButNames {} namesStripped := by
    refine ⟨rfl, fun _ => rfl, fun index => ?_⟩
    by_cases first : index = 0
    · simp [commentEnders, namesStripped, first]
    · simp [commentEnders, namesStripped, first]
  exact ⟨same, by decide +kernel, by decide +kernel,
    names_only_annotate Settings.default_valid same .blank commentEnders.scan.arena⟩

end ThreadedCode
