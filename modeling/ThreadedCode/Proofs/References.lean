import ThreadedCode.Proofs.BlockStatements
import ThreadedCode.Proofs.InstructionMeaning

/-!
# References to blocks

Lowering looks up every block that it names and reports those that the arena does not have, in the
order in which the statements name them. The walk keeps these reports, and the returns that it adds
by itself go to blocks of the arena only. So what is reported is exactly what the statements name
and the arena does not have.
-/

namespace ThreadedCode

namespace Notice

/-- The block that the notice warns of, if it is about a block that is none. -/
def reference? : Notice → Option Nat
  | .undeclared block | .entryUndeclared block => some block
  | _ => none

/-- The notice warns that a block is named which is none, by the code or by the entry jump. -/
def WarnsOfReference (notice : Notice) : Prop :=
  notice.level = .warn ∧ ∃ block,
    notice.text = "Reference to " ++ blockLabel block ++ ", which does not start a block" ∨
    notice.text = "Entry jump targets " ++ blockLabel block ++ ", which does not start a block"

theorem head?_append {front : String} {letter : Char} (begins : front.toList.head? = some letter)
    (back : String) : (front ++ back).toList.head? = some letter := by
  rw [String.toList_append, List.head?_append, begins]
  rfl

/-- Warnings differ in their first letter. -/
theorem head?_text {notice : Notice} (warns : notice.level = .warn) :
    notice.text.toList.head? =
      match notice with
      | .undeclared _ => some 'R'
      | .entryUndeclared _ => some 'E'
      | .trailingBytes _ => some 'I'
      | _ => some 'S' := by
  cases notice with
  | undeclared _ | entryUndeclared _ | trailingBytes _ =>
      exact head?_append (head?_append (by decide) _) _
  | unreachable opcode offset =>
      exact head?_append (head?_append (head?_append (by decide) _) _) _
  | _ => cases warns

theorem warnsOfReference_iff {notice : Notice} :
    notice.WarnsOfReference ↔ ∃ block, notice.reference? = some block := by
  constructor
  · rintro ⟨warns, block, reads⟩
    have letter := head?_text warns
    have reference : (Notice.undeclared block).text.toList.head? = some 'R' := head?_text rfl
    have entry : (Notice.entryUndeclared block).text.toList.head? = some 'E' := head?_text rfl
    have found : notice.text.toList.head? = some 'R' ∨ notice.text.toList.head? = some 'E' :=
      reads.imp (fun same => (congrArg (·.toList.head?) same).trans reference)
        fun same => (congrArg (·.toList.head?) same).trans entry
    rw [letter] at found
    cases notice with
    | undeclared other | entryUndeclared other => exact ⟨other, rfl⟩
    | trailingBytes _ | unreachable _ _ => simp at found
    | _ => cases warns
  · rintro ⟨block, found⟩
    cases notice with
    | undeclared other => exact ⟨rfl, other, Or.inl rfl⟩
    | entryUndeclared other => exact ⟨rfl, other, Or.inr rfl⟩
    | _ => cases found

/-- Notices that warn of no reference. -/
theorem filterMap_reference?_eq_nil_iff {notices : List Notice} :
    notices.filterMap reference? = [] ↔ ∀ notice ∈ notices, ¬notice.WarnsOfReference := by
  rw [List.filterMap_eq_nil_iff]
  refine forall₂_congr fun notice _ => ?_
  rw [warnsOfReference_iff, ← Option.isSome_iff_exists, Bool.not_eq_true,
    Option.isSome_eq_false_iff, Option.isNone_iff_eq_none]

end Notice

/-- The blocks that the arena does not have. -/
def Arena.missing (arena : Arena) (blocks : List Nat) : List Nat :=
  blocks.filter fun block => !arena.contains block

theorem Arena.missing_append (arena : Arena) (blocks more : List Nat) :
    arena.missing (blocks ++ more) = arena.missing blocks ++ arena.missing more :=
  List.filter_append _ _

theorem Arena.missing_eq_nil_iff {arena : Arena} {blocks : List Nat} :
    arena.missing blocks = [] ↔ ∀ block ∈ blocks, block ∈ arena.offsets := by
  simp [missing, List.filter_eq_nil_iff, Arena.contains_iff]

namespace Lowering

section Reports

variable {α β : Type} {settings : Settings} {program : Program} {arena : Arena} {block : Nat}
  {instruction : Instruction} {span : Span} {operands : List Word}

/-- The blocks that lowering reports. -/
def reported (trace : Lowered α) : List Nat := trace.emitted.filterMap Notice.reference?

theorem reported_bind {trace : Lowered α} {value : α} (found : trace.outcome = .ok value)
    (next : α → Lowered β) :
    reported (trace >>= next) = reported trace ++ reported (next value) := by
  rw [Trace.bind_of_ok found]
  exact List.filterMap_append

theorem reported_map (f : α → β) (trace : Lowered α) : reported (f <$> trace) = reported trace := by
  obtain ⟨notices, outcome⟩ := trace
  cases outcome with
  | ok value => rw [Trace.map_ok, reported, reported]
  | error cause => rfl

theorem reported_refer (arena : Arena) (target : Nat) :
    reported (refer arena target) = arena.missing [target] := by
  unfold refer reported Arena.missing
  cases found : arena.contains target <;> simp [found, Notice.reference?]

theorem reported_referOperand {index target : Nat}
    (found : operandBlock span operands index = .ok target) :
    reported (referOperand arena span operands index) = arena.missing [target] := by
  have located : (Trace.ofExcept (operandBlock span operands index) : Lowered Nat).outcome =
      .ok target := found
  rw [referOperand, reported_bind located, reported_refer]
  rfl

theorem reported_caseBlocks {arguments : Nat} {cases targets : List Nat}
    (found : (caseBlocks arena span operands arguments cases).outcome = .ok targets) :
    reported (caseBlocks arena span operands arguments cases) = arena.missing targets := by
  induction cases generalizing targets with
  | nil =>
      cases found
      rfl
  | cons case rest ih =>
      simp only [caseBlocks, Trace.outcome_bind, except_bind_eq_ok] at found
      obtain ⟨target, first, others, second, result⟩ := found
      cases result
      have located := first
      rw [referOperand_outcome] at located
      rw [caseBlocks, reported_bind first, reported_bind second, reported_referOperand located,
        ih second, ← List.append_assoc, ← Arena.missing_append]
      exact List.append_nil _

theorem reported_store {store : Option Store}
    (found : (Lowering.store settings program arena instruction operands).outcome = .ok store) :
    reported (Lowering.store settings program arena instruction operands) =
      arena.missing ((store.map Store.references).getD []) := by
  have outcome := found
  rw [store_outcome] at outcome
  cases flow : instruction.opcode.flow <;> simp only [flow] at outcome
  case funMulti =>
    obtain ⟨blocks, table, result⟩ := except_bind_eq_ok.mp outcome
    cases result
    have tabled := table
    simp only [dispatchTable, Trace.outcome_bind, except_bind_eq_ok] at tabled
    obtain ⟨cases, counted, arguments, tagged, listed⟩ := tabled
    simp only [Lowering.store, flow]
    rw [reported_bind table, dispatchTable, reported_bind counted, reported_bind tagged,
      reported_caseBlocks listed]
    exact List.append_nil _
  case builtin =>
    cases outcome
    simp only [Lowering.store, flow]
    split
    · exact (reported_bind rfl _).trans
        ((congrArg (· ++ _) (reported_refer arena _)).trans (List.append_nil _))
    · rfl
  all_goals
    cases outcome
    simp only [Lowering.store, flow]
    rfl

theorem reported_handoff {handoff : Option Nat}
    (found : (Lowering.handoff arena block instruction operands).outcome = .ok handoff) :
    reported (Lowering.handoff arena block instruction operands) =
      arena.missing handoff.toList := by
  rw [handoff_outcome] at found
  cases kind : instruction.opcode.flow.handoff <;> simp only [kind] at found <;>
    simp only [Lowering.handoff, kind]
  case none =>
    cases found
    rfl
  case firstOperand =>
    obtain ⟨target, located, rfl⟩ := except_map_eq_ok.mp found
    rw [reported_map]
    exact reported_referOperand located
  all_goals
    cases found
    rw [reported_map]
    exact reported_refer arena _

theorem reported_transfer {transfer : Transfer}
    (found : (Lowering.transfer arena instruction operands).outcome = .ok transfer) :
    reported (Lowering.transfer arena instruction operands) =
      arena.missing transfer.references := by
  rw [transfer_outcome] at found
  cases kind : instruction.opcode.flow.departure <;> simp only [kind] at found <;>
    simp only [Lowering.transfer, kind]
  case staticTarget index =>
    obtain ⟨target, located, rfl⟩ := except_map_eq_ok.mp found
    rw [reported_map]
    exact reported_referOperand located
  all_goals
    cases found
    rfl

theorem reported_call {handler : HandlerCall}
    (found : (call settings program arena block instruction operands).outcome = .ok handler) :
    reported (call settings program arena block instruction operands) =
      arena.missing handler.references := by
  simp only [call_outcome, except_bind_eq_ok] at found
  obtain ⟨store, stored, handoff, handed, transfer, transferred, result⟩ := found
  cases result
  rw [call, reported_bind stored, reported_bind handed, reported_bind transferred,
    reported_store stored, reported_handoff handed, reported_transfer transferred,
    HandlerCall.references, Arena.missing_append, Arena.missing_append, List.append_assoc]
  exact congrArg (_ ++ ·) (congrArg (_ ++ ·) (List.append_nil _))

/-- Lowering reports exactly the blocks that the statement names and the arena does not have. -/
theorem reported_statement {statement : Statement}
    (lowered : (Lowering.statement settings program arena block instruction).outcome =
      .ok statement) :
    reported (Lowering.statement settings program arena block instruction) =
      arena.missing statement.references := by
  rw [statement_outcome] at lowered
  rw [Lowering.statement]
  refine (reported_bind rfl _).trans ((List.nil_append _).trans ?_)
  cases flow : instruction.opcode.flow <;> simp only [flow] at lowered ⊢
  case jump | conditionalJump =>
    obtain ⟨target, located, rfl⟩ := except_map_eq_ok.mp lowered
    rw [reported_map]
    exact reported_referOperand located
  all_goals
    obtain ⟨handler, called, rfl⟩ := except_map_eq_ok.mp lowered
    rw [reported_map]
    exact reported_call called

end Reports

end Lowering

namespace Item

/-- The notice that the item is, if it is one. -/
def notice? : Item → Option Notice
  | .notice content => some content
  | _ => none

/-- The statement that the item is, if it is one. -/
def statement? : Item → Option Statement
  | .line statement => some statement
  | _ => none

/-- Printing an item leaves its notice. -/
theorem noticesOf_print {settings : Settings} {page behind : Page} {item : Item}
    (printed : (print settings page item).outcome = .ok behind) :
    Event.noticesOf (print settings page item).emitted = item.notice?.toList := by
  by_cases notice : ∃ content, item = .notice content
  · obtain ⟨content, rfl⟩ := notice
    rfl
  · have written : ∀ content, item ≠ .notice content := fun content same => notice ⟨content, same⟩
    have silent : item.notice? = none := by
      cases item with
      | notice content => exact absurd rfl (written content)
      | label _ | header _ | line _ | footer => rfl
    rw [print] at printed
    · rw [Trace.outcome_bind, except_bind_eq_ok] at printed
      obtain ⟨after, performed, -⟩ := printed
      rw [print_of_ok written performed, silent]
      rfl
    · exact written

theorem noticesOf_printAll {settings : Settings} {page behind : Page} {items : List Item}
    (printed : (printAll settings page items).outcome = .ok behind) :
    Event.noticesOf (printAll settings page items).emitted = items.filterMap notice? := by
  induction items generalizing page with
  | nil => rfl
  | cons item rest ih =>
      simp only [printAll, Trace.outcome_bind, except_bind_eq_ok] at printed
      obtain ⟨after, first, others⟩ := printed
      have split : Event.noticesOf (printAll settings page (item :: rest)).emitted =
          Event.noticesOf (print settings page item).emitted
            ++ Event.noticesOf (printAll settings after rest).emitted := by
        rw [printAll, Trace.bind_of_ok first]
        exact List.filterMap_append
      rw [split, noticesOf_print first, ih others]
      cases item <;> rfl

end Item

namespace Bodies

/-- The blocks that the items report. -/
def reported (items : List Item) : List Nat :=
  (items.filterMap Item.notice?).filterMap Notice.reference?

/-- The blocks that the statements among the items name. -/
def references (items : List Item) : List Nat :=
  (items.filterMap Item.statement?).flatMap Statement.references

/-- The items report exactly the blocks that they name and the arena does not have. -/
def Reports (arena : Arena) (items : List Item) : Prop :=
  reported items = arena.missing (references items)

namespace Reports

variable {arena : Arena}

theorem append {items more : List Item} (first : Reports arena items)
    (second : Reports arena more) : Reports arena (items ++ more) := by
  unfold Reports reported references at *
  rw [List.filterMap_append, List.filterMap_append, List.filterMap_append, List.flatMap_append,
    Arena.missing_append, first, second]

/-- Items without statements that report nothing. -/
theorem silent {items : List Item} (unreported : reported items = [])
    (nameless : items.filterMap Item.statement? = []) : Reports arena items := by
  unfold Reports references
  rw [unreported, nameless]
  rfl

end Reports

section Walks

variable {settings : Settings} {program : Program} {arena : Arena} {instruction : Instruction}
  {current : Option OpenBody}

theorem reports_entering (program : Program) (arena : Arena) (offset : Nat) (opcode : Opcode) :
    Reports arena (entering program arena offset opcode) := by
  apply Reports.silent <;> unfold entering <;> split <;> split <;> rfl

/-- The block that a body goes on to is one of the arena. -/
theorem reports_closing (closed : closes program arena instruction = true) (body : OpenBody) :
    Reports arena (closing instruction.opcode instruction.next
      (program.code.size ≤ instruction.next) body) := by
  unfold closing
  split
  · rfl
  · split
    · rfl
    · split
      · rfl
      · rename_i inside
        have declared : arena.contains instruction.next = true := by
          simpa [closes, inside] using closed
        have found : arena.missing [instruction.next] = [] := by simp [Arena.missing, declared]
        exact found.symm

/-- The notices of a statement report what its line names. -/
theorem reports_line {block : Nat} {statement : Statement}
    (lowered : (Lowering.statement settings program arena block instruction).outcome =
      .ok statement) :
    Reports arena
      ((Lowering.statement settings program arena block instruction).emitted.map Item.notice
        ++ [.line statement]) := by
  have notices : ∀ notices : List Notice,
      (notices.map Item.notice).filterMap Item.notice? = notices ∧
        (notices.map Item.notice).filterMap Item.statement? = [] := by
    intro notices
    induction notices with
    | nil => exact ⟨rfl, rfl⟩
    | cons notice rest ih => exact ⟨congrArg (List.cons notice) ih.1, ih.2⟩
  have named := Lowering.reported_statement lowered
  have single : [statement].flatMap Statement.references = statement.references := by simp
  unfold Reports reported references
  rw [List.filterMap_append, List.filterMap_append, List.filterMap_append, (notices _).1,
    (notices _).2]
  exact (List.append_nil _).trans (named.trans (congrArg arena.missing single.symm))

theorem step_reports {after : Option OpenBody}
    (stepped : (step settings program arena instruction current).outcome = .ok after) :
    Reports arena (step settings program arena instruction current).emitted := by
  have front := reports_entering program arena instruction.offset instruction.opcode
  cases entered : entered arena instruction.offset current with
  | none =>
      rw [step_outside entered]
      exact front.append rfl
  | some body =>
      cases lowered : (Lowering.statement settings program arena body.block
          instruction).outcome with
      | error cause =>
          rw [step_fails entered lowered] at stepped
          cases stepped
      | ok statement =>
          rw [step_writes entered lowered, written, List.append_cons]
          refine front.append ((reports_line lowered).append ?_)
          cases closed : closes program arena instruction with
          | true => exact reports_closing closed _
          | false => rfl

/-- A walk to the end reports exactly the blocks that its statements name and the arena does not
have. -/
theorem walk_reports {instructions : List Instruction} {ending : Ending} {bodies count : Nat}
    (finished : (walk settings program arena ending current bodies instructions).outcome =
      .ok count) :
    Reports arena (walk settings program arena ending current bodies instructions).emitted := by
  induction instructions generalizing current bodies with
  | nil =>
      cases ending with
      | complete => rfl
      | badOpcode _ _ | unresolved _ _ _ => cases finished
  | cons instruction rest ih =>
      cases stepped : (step settings program arena instruction current).outcome with
      | error cause =>
          rw [walk_cons_error stepped] at finished
          cases finished
      | ok after =>
          rw [walk_cons_ok stepped] at finished ⊢
          exact (step_reports stepped).append (ih finished)

end Walks

/-- Every statement among nested items belongs to a definition, or to the body that is open in front
of them. -/
theorem statements_of_nesting {inside final : Bool} {items : List Item}
    (nested : nesting inside items = some final) :
    items.filterMap Item.statement? =
      (if inside then statements items else [])
        ++ (definitions items).flatMap Definition.statements := by
  induction items generalizing inside with
  | nil => cases inside <;> rfl
  | cons item rest ih =>
      obtain ⟨after, first, others⟩ := nesting_cons nested
      have rest := ih others
      cases item with
      | notice content | label name =>
          cases first
          exact rest
      | header block =>
          cases inside <;> cases first
          exact rest
      | line statement =>
          cases inside <;> cases first
          exact congrArg (List.cons statement) rest
      | footer =>
          cases inside <;> cases first
          exact rest

end Bodies

end ThreadedCode
