import ThreadedCode.Proofs.Rendering

/-!
# Taking the notes out

The note of a handler call is the only comment of its line. If the first comment of the line is
taken out, with the blank in front of it, then what is left is the line of the call without its
note, also where the page has indented the lines of the note. The rest of a line never holds a
slash, so a line without a note begins no comment.
-/

namespace ThreadedCode

namespace Comment

open Lexer

/-- What stands behind the first end of a block comment. -/
def behind : List Char → List Char
  | '*' :: '/' :: rest => rest
  | _ :: rest => behind rest
  | [] => []

/-- The characters without the first block comment and the character in front of it. -/
def eraseChars : List Char → List Char
  | _ :: '/' :: '*' :: rest => behind rest
  | char :: rest => char :: eraseChars rest
  | [] => []

/-- The text without the first block comment and the character in front of it. -/
def erase (text : String) : String := String.ofList (eraseChars text.toList)

/-- Does the text begin a block comment anywhere? -/
def Begins (text : String) : Prop := ['/', '*'] <:+: text.toList

theorem not_begins {text : String} (plain : '/' ∉ text.toList) : ¬Begins text :=
  fun begins => plain (begins.subset List.mem_cons_self)

theorem behind_append {note : List Char} (stays : StaysOpen note) (rest : List Char) :
    behind (note ++ '*' :: '/' :: rest) = rest := by
  induction stays with
  | nil => rfl
  | @cons char others apart stays ih =>
      rw [List.cons_append, behind, ih]
      intro tail star closes
      apply apart star
      cases others with
      | nil => cases closes
      | cons next _ =>
          cases closes
          rfl

theorem eraseChars_of_plain {chars : List Char} (plain : '/' ∉ chars) :
    eraseChars chars = chars := by
  fun_induction eraseChars chars with
  | case1 char rest => simp at plain
  | case2 char rest _ ih =>
      rw [List.mem_cons, not_or] at plain
      rw [ih plain.2]
  | case3 => rfl

/-- The first comment is taken out whole, and nothing else. -/
theorem eraseChars_append {front note : List Char} (plain : '/' ∉ front) (stays : StaysOpen note)
    (back : List Char) :
    eraseChars (front ++ ' ' :: '/' :: '*' :: (note ++ '*' :: '/' :: back)) = front ++ back := by
  induction front with
  | nil => exact behind_append stays back
  | cons char rest ih =>
      rw [List.mem_cons, not_or] at plain
      rw [List.cons_append, eraseChars, ih plain.2, List.cons_append]
      -- what follows the character begins with no slash
      intro tail slash
      cases rest with
      | nil => cases slash
      | cons next others =>
          have first : next = '/' := (List.cons.inj slash).1
          exact plain.2 (first ▸ List.mem_cons_self)

example : erase "call(); /* x /* y ** */ /* z */ return;" = "call(); /* z */ return;" := by decide

end Comment

namespace Page

open Lexer

theorem head?_indented (depth : Nat) (chars : List Char) :
    (indented depth false chars).head? = chars.head? := by
  cases chars with
  | nil => rfl
  | cons char rest => rw [indented_midLine, List.head?_cons, List.head?_cons]

/-- A comment that is indented stays open. -/
theorem staysOpen_indented (depth : Nat) (fresh : Bool) {chars : List Char}
    (stays : StaysOpen chars) : StaysOpen (indented depth fresh chars) := by
  induction stays generalizing fresh with
  | nil => exact .nil
  | @cons char rest apart stays ih =>
      by_cases ends : char = '\n'
      · simp only [indented, ends, if_true]
        exact .cons (fun star => absurd star (by decide)) (ih true)
      · simp only [indented, ends, if_false]
        apply staysOpen_append
        · split <;> simp [List.mem_replicate]
        · -- what follows on the line is not indented
          exact .cons (fun star => head?_indented depth rest ▸ apart star) (ih false)

end Page

namespace Comment

open Lexer Page

/-- The first comment is also taken out whole where its lines are indented. What stands in front of
it has begun the line that the comment begins on. -/
theorem eraseChars_indented (depth : Nat) (fresh : Bool) {front note : List Char}
    (plain : '/' ∉ front) (begins : ∀ before, begun before front = true) (stays : StaysOpen note)
    (back : List Char) :
    eraseChars (indented depth fresh
        (front ++ ' ' :: '/' :: '*' :: ' ' :: (note ++ ' ' :: '*' :: '/' :: back))) =
      indented depth fresh (front ++ back) := by
  have whole : front ++ ' ' :: '/' :: '*' :: ' ' :: (note ++ ' ' :: '*' :: '/' :: back) =
      front ++ ([' ', '/', '*'] ++ ((' ' :: note ++ [' ']) ++ (['*', '/'] ++ back))) := by simp
  have inside : StaysOpen (' ' :: note ++ [' ']) := .cons nofun (stays.blank)
  have blank : ∀ before, begun before (' ' :: note ++ [' ']) = true := by
    intro before
    rw [begun_append]
    rfl
  have ending : ∀ before, begun before ['*', '/'] = true := fun _ => rfl
  rw [whole, indented_append_begun depth fresh begins, indented_append_begun depth fresh begins,
    indented_append_begun depth false (fun _ => rfl), indented_append_begun depth false blank,
    indented_append_begun depth false ending]
  exact eraseChars_append (not_mem_indented (by decide) plain)
    (staysOpen_indented depth false inside) _

end Comment

namespace Settings

variable {settings : Settings}

theorem slash_not_mem_member (valid : settings.invalidName? = none) {name : String}
    (plain : '/' ∉ name.toList) : '/' ∉ (settings.member name).toList := by
  have param := not_mem_name valid (show Identifier.isContinue '/' = false by decide)
    (show settings.contextParam ∈ settings.identifiers by simp [identifiers])
  rw [member]
  exact not_mem_append (not_mem_append param (by decide)) plain

theorem slash_not_mem_slot (valid : settings.invalidName? = none) {name : String}
    (checked : name ∈ settings.identifiers) : '/' ∉ (settings.member name).toList :=
  slash_not_mem_member valid (not_mem_name valid (by decide) checked)

theorem slash_not_mem_blockName (valid : settings.invalidName? = none) (block : Nat) :
    '/' ∉ (settings.blockName block).toList :=
  not_mem_blockName valid (by decide) block

end Settings

section Lines

variable {settings : Settings} (valid : settings.invalidName? = none)
include valid

theorem Transfer.slash_not_mem_render (transfer : Transfer) :
    '/' ∉ (transfer.render settings).toList := by
  have slot := Settings.slash_not_mem_slot valid
    (show settings.nextCallTargetSlot ∈ settings.identifiers by simp [Settings.identifiers])
  cases transfer with
  | stay => exact List.not_mem_nil
  | goto block =>
      have name := Settings.slash_not_mem_blockName valid block
      exact not_mem_append (not_mem_append (by decide) (not_mem_append (by decide) name))
        (by decide)
  | slot =>
      exact not_mem_append (not_mem_append (by decide) slot) (by decide)
  | slotIfSet =>
      exact not_mem_append (not_mem_append (not_mem_append (not_mem_append (by decide) slot)
        (by decide)) slot) (by decide)

theorem Store.slash_not_mem_render (store : Store) : '/' ∉ (store.render settings).toList := by
  cases store with
  | dispatch cases =>
      have type : '/' ∉ settings.qualifiedBlockType.toList :=
        Settings.not_mem_qualified valid (by simp [Settings.identifiers]) (by decide) (by decide)
      have slot := Settings.slash_not_mem_slot valid
        (show settings.nextTableSlot ∈ settings.identifiers by simp [Settings.identifiers])
      have names : '/' ∉ (", ".intercalate (cases.map settings.blockName)).toList := by
        apply not_mem_intercalate (by decide)
        intro name member
        obtain ⟨block, -, rfl⟩ := List.mem_map.mp member
        exact Settings.slash_not_mem_blockName valid block
      have opens : '/' ∉ ("static " ++ settings.qualifiedBlockType ++ " mmtable[] = \x7b").toList :=
        not_mem_append (not_mem_append (by decide) type) (by decide)
      exact not_mem_append (not_mem_append (not_mem_append (not_mem_append opens names)
        (by decide)) slot) (by decide)
  | resume block =>
      have slot := Settings.slash_not_mem_slot valid
        (show settings.nextCallTargetSlot ∈ settings.identifiers by simp [Settings.identifiers])
      have name := Settings.slash_not_mem_blockName valid block
      exact not_mem_append (not_mem_append (not_mem_append slot (by decide)) name) (by decide)

theorem HandlerCall.slash_not_mem_renderInvocation (call : HandlerCall) :
    '/' ∉ (call.renderInvocation settings).toList := by
  have name : '/' ∉ (settings.handlerPrefix ++ call.opcode.name).toList :=
    fun member => nomatch (Settings.isWord_handler valid call.opcode).continues '/' member
  have handler := Settings.slash_not_mem_member valid name
  have arguments : '/' ∉ (if call.operands.isEmpty then "nullptr" else "args").toList := by
    split <;> decide
  have handoff : '/' ∉
      ((call.handoff.map fun block => ", " ++ settings.blockName block).getD "").toList := by
    cases call.handoff with
    | none => exact List.not_mem_nil
    | some block =>
        exact not_mem_append (by decide) (Settings.slash_not_mem_blockName valid block)
  rw [renderInvocation]
  exact not_mem_append (not_mem_append (not_mem_append (not_mem_append handler (by decide))
    arguments) handoff) (by decide)

end Lines

theorem HandlerCall.slash_not_mem_renderOperands (operands : List Word) :
    '/' ∉ (renderOperands operands).toList := by
  have words : '/' ∉ (", ".intercalate (operands.map Word.text)).toList := by
    apply not_mem_intercalate (by decide)
    intro text member
    obtain ⟨word, -, rfl⟩ := List.mem_map.mp member
    exact word.not_mem_text (by decide) (by decide)
  unfold renderOperands
  split
  · exact List.not_mem_nil
  · exact not_mem_append (not_mem_append (by decide) words) (by decide)

namespace HandlerCall

variable {settings : Settings} {call : HandlerCall}

/-- The call without its note. -/
def bare (call : HandlerCall) : HandlerCall := { call with note := none }

/-- The line of the call up to the note. -/
def head (settings : Settings) (call : HandlerCall) : String :=
  "\x7b " ++ renderOperands call.operands ++ (call.store.map (Store.render settings)).getD ""
    ++ call.renderInvocation settings

/-- The line of the call behind the note. -/
def tail (settings : Settings) (call : HandlerCall) : String :=
  call.transfer.render settings ++ " \x7d"

theorem render_eq (settings : Settings) (call : HandlerCall) :
    call.render settings = call.head settings ++ call.renderNote ++ call.tail settings := by
  simp only [render, head, tail, String.append_assoc]

theorem bare_of_note_eq_none (none : call.note = none) : call.bare = call := by
  rw [bare, ← none]

theorem render_bare (settings : Settings) (call : HandlerCall) :
    call.bare.render settings = call.head settings ++ call.tail settings := by
  rw [render_eq]
  exact congrArg (· ++ call.tail settings) String.append_empty

theorem slash_not_mem_head (valid : settings.invalidName? = none) :
    '/' ∉ (call.head settings).toList := by
  have store : '/' ∉ ((call.store.map (Store.render settings)).getD "").toList := by
    cases call.store with
    | none => exact List.not_mem_nil
    | some store => exact store.slash_not_mem_render valid
  have operands := slash_not_mem_renderOperands call.operands
  rw [head]
  exact not_mem_append (not_mem_append (not_mem_append (by decide) operands) store)
    (call.slash_not_mem_renderInvocation valid)

theorem slash_not_mem_tail (valid : settings.invalidName? = none) :
    '/' ∉ (call.tail settings).toList := by
  rw [tail]
  exact not_mem_append (call.transfer.slash_not_mem_render valid) (by decide)

/-- What stands in front of the note has begun the line. -/
theorem begun_head (before : Bool) : Page.begun before (call.head settings).toList = true := by
  simp only [head, renderInvocation, String.toList_append, Page.begun_append]
  rfl

/-- Without its note, the line of a call has no slash, so it begins no comment. -/
theorem slash_not_mem_render_bare (valid : settings.invalidName? = none) :
    '/' ∉ (call.bare.render settings).toList := by
  rw [render_bare]
  exact not_mem_append (slash_not_mem_head valid) (slash_not_mem_tail valid)

/-- Wherever the line of a call is written, taking the first comment out of it leaves the line of
the call without its note. -/
theorem erase_inlineText (valid : settings.invalidName? = none) (guarded : call.Guarded)
    (depth : Nat) (midLine : Bool) {rest : String} (plain : '/' ∉ rest.toList) :
    Comment.erase (Page.inlineText depth midLine (call.render settings ++ rest)) =
      Page.inlineText depth midLine (call.bare.render settings ++ rest) := by
  unfold Comment.erase Page.inlineText
  rw [String.toList_ofList]
  apply congrArg String.ofList
  cases noted : call.note with
  | none =>
      have line : '/' ∉ (call.bare.render settings ++ rest).toList :=
        not_mem_append (slash_not_mem_render_bare valid) plain
      rw [bare_of_note_eq_none noted] at line ⊢
      exact Comment.eraseChars_of_plain (Page.not_mem_indented (by decide) line)
  | some note =>
      have line : (call.render settings ++ rest).toList =
          (call.head settings).toList ++ ' ' :: '/' :: '*' :: ' ' ::
            (note.toList ++ ' ' :: '*' :: '/' :: (call.tail settings ++ rest).toList) := by
        simp [render_eq, renderNote, noted]
      have bare : (call.bare.render settings ++ rest).toList =
          (call.head settings).toList ++ (call.tail settings ++ rest).toList := by
        simp [render_bare]
      rw [line, bare]
      exact Comment.eraseChars_indented depth _ (slash_not_mem_head valid) begun_head
        (guarded note noted) _

end HandlerCall

end ThreadedCode
