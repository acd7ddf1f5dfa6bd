import ThreadedCode.Body.Pen
import ThreadedCode.Proofs.Compilation
import ThreadedCode.Proofs.LimitedRoom
import ThreadedCode.Proofs.LineIndentation

/-!
# Bodies in a full sink

A pen follows a page: the pieces that it sends are together the text that comes onto the page, and
it stands where the page stands. This holds of one piece, hence of the blanks in front of a line, of
a line, of a text, of a command and of an item. So a sink of limited room cuts the text of the
bodies off where its room ends, be it within the blanks of a line or in front of a brace. What is
wrong with the program is found exactly if all text in front of it has been written.
-/

namespace ThreadedCode

/-- The characters of all text of the events. -/
def Event.chars (events : List Event) : List Char := (textOf events).toList

theorem Event.chars_append (events more : List Event) :
    chars (events ++ more) = chars events ++ chars more := by
  simp [chars, textOf]

theorem Event.chars_text (text : String) : chars [.text text] = text.toList :=
  congrArg String.toList (Item.textOf_single text)

namespace Pen

open Trace (Fills)

/-- With a pen that stands where the first page does, the step sends the text that the second page
has more, and leaves the pen where that page stands. -/
def Draws (step : Pen → Trace Event Failure Pen) (page after : Page) : Prop :=
  ∃ added : List Char, after.text = page.text ++ String.ofList added ∧
    ∀ room, Fills Event.chars .sinkFull room added (step (.on page room)) fun left =>
      .ok (.on after left)

theorem draws_pure (page : Page) : Draws pure page page :=
  ⟨[], String.append_empty.symm, fun room => .nothing rfl room fun left => .ok (on page left)⟩

theorem Draws.bind {step next : Pen → Trace Event Failure Pen} {page between after : Page}
    (first : Draws step page between) (second : Draws next between after) :
    Draws (fun pen => step pen >>= next) page after := by
  obtain ⟨added, text, fills⟩ := first
  obtain ⟨more, moreText, fillsMore⟩ := second
  refine ⟨added ++ more, ?_, fun room => (fills room).bind Event.chars_append fillsMore⟩
  rw [moreText, text, String.ofList_append, String.append_assoc]

/-- Loops over the same list, of a pen and of a page. -/
theorem draws_foldlM {α : Type} {step : Pen → α → Trace Event Failure Pen} {move : Page → α → Page}
    (each : ∀ page item, Draws (step · item) page (move page item)) (items : List α) (page : Page) :
    Draws (items.foldlM step) page (items.foldl move page) := by
  induction items generalizing page with
  | nil => exact draws_pure page
  | cons item rest ih => exact (each page item).bind (ih _)

theorem draws_midLine (page : Page) (midLine : Bool) :
    Draws (fun pen => return { pen with midLine }) page { page with midLine } :=
  draws_pure { page with midLine }

theorem draws_deeper (page : Page) :
    Draws (fun pen => return { pen with depth := pen.depth + 1 }) page
      { page with depth := page.depth + 1 } :=
  draws_pure { page with depth := page.depth + 1 }

theorem draws_send (page : Page) (piece : String) :
    Draws (·.send piece) page { page with text := page.text ++ piece } := by
  refine ⟨piece.toList, by rw [String.ofList_toList], fun room => ?_⟩
  cases filled : room.fill piece.toList with
  | mk taken left? =>
      cases left? with
      | none =>
          have sent : (on page room).send piece =
              ⟨[.text (String.ofList taken)], .error .sinkFull⟩ := by
            simp only [send, on, filled]
            rfl
          simp only [sent]
          constructor
          · rw [filled, Event.chars_text, String.toList_ofList]
          · rw [filled]
            rfl
      | some left =>
          have sent : (on page room).send piece = ⟨[.text piece], .ok (on page left)⟩ := by
            simp only [send, on, filled]
            rfl
          simp only [sent]
          constructor
          · rw [filled, Event.chars_text, Room.taken_of_some filled]
          · rw [filled]
            rfl

/-- The blanks in front of a line, block by block. -/
theorem join_blanks (depth : Nat) :
    String.join (List.replicate depth "    ") = Page.indentation depth := by
  induction depth with
  | zero => rfl
  | succ depth ih =>
      rw [List.replicate_succ, String.join_cons, ih]
      simp [Page.indentation, Nat.mul_succ, ← String.toList_inj, List.replicate_succ]

theorem foldl_pieces (page : Page) (pieces : List String) :
    pieces.foldl (fun page piece => { page with text := page.text ++ piece }) page =
      { page with text := page.text ++ String.join pieces } := by
  induction pieces generalizing page with
  | nil => simp
  | cons piece rest ih => rw [List.foldl_cons, ih, String.join_cons, String.append_assoc]

theorem draws_indent (page : Page) : Draws indent page page.indent := by
  obtain ⟨text, depth, midLine⟩ := page
  cases midLine with
  | true => exact draws_pure _
  | false =>
      have blanks := draws_foldlM draws_send (List.replicate depth "    ") ⟨text, depth, false⟩
      rw [foldl_pieces, join_blanks] at blanks
      exact blanks.bind (draws_midLine _ true)

theorem draws_putLine (page : Page) (line : List Char) :
    Draws (·.putLine line) page (page.putLine line) := by
  have rest (placed : Page) := (draws_send placed (String.ofList line)).bind
    (draws_midLine _ (line.getLast? != some '\n'))
  by_cases ends : line = ['\n']
  · simp only [putLine, Page.putLine, if_pos ends]
    exact (draws_pure page).bind (rest page)
  · simp only [putLine, Page.putLine, if_neg ends]
    exact (draws_indent page).bind (rest page.indent)

theorem draws_write (page : Page) (text : String) : Draws (·.write text) page (page.write text) :=
  draws_foldlM draws_putLine (Page.lines text) page

theorem draws_newline (page : Page) : Draws newline page page.newline :=
  (draws_send page "\n").bind (draws_midLine _ false)

theorem draws_openBlock (page : Page) : Draws openBlock page page.openBlock := by
  obtain ⟨text, depth, midLine⟩ := page
  have rest (page : Page) := (draws_write page "\x7b\n").bind (draws_deeper _)
  cases midLine with
  | true =>
      have opened := (draws_write ⟨text, depth, true⟩ " ").bind (rest _)
      rw [Page.write_append] at opened
      exact opened
  | false => exact (draws_pure _).bind (rest ⟨text, depth, false⟩)

theorem draws_close {page after : Page} {line : String} (closed : page.close line = .ok after) :
    Draws (·.close line) page after := by
  obtain ⟨text, depth, midLine⟩ := page
  cases depth with
  | zero => cases closed
  | succ depth =>
      cases closed
      have rest (page : Page) : Draws (fun pen => write { pen with depth } line) page _ :=
        draws_write { page with depth } line
      cases midLine with
      | true => exact (draws_newline ⟨text, depth + 1, true⟩).bind (rest _)
      | false => exact (draws_pure _).bind (rest ⟨text, depth + 1, false⟩)

theorem draws_perform {page after : Page} {command : Page.Command}
    (performed : page.perform command = .ok after) : Draws (·.perform command) page after := by
  cases command with
  | write text =>
      cases performed
      exact draws_write page text
  | newline =>
      cases performed
      exact draws_newline page
  | openBlock =>
      cases performed
      exact draws_openBlock page
  | closeBlock => exact draws_close performed
  | closeDeclaration => exact draws_close performed

theorem draws_performAll {page after : Page} {commands : List Page.Command}
    (performed : page.performAll commands = .ok after) :
    Draws (commands.foldlM perform) page after := by
  induction commands generalizing page with
  | nil =>
      cases performed
      exact draws_pure _
  | cons command rest ih =>
      obtain ⟨between, first, others⟩ := except_bind_eq_ok.mp performed
      exact (draws_perform first).bind (ih others)

/-- A pen prints an item as it is printed on a page. -/
theorem print_fills {settings : Settings} {page behind : Page} {item : Item}
    (printed : (Item.print settings page item).outcome = .ok behind) (room : Room) :
    Fills Event.chars .sinkFull room (Event.chars (Item.print settings page item).emitted)
      (print settings (.on page room) item) fun left => .ok (.on behind left) := by
  by_cases notice : ∃ content, item = .notice content
  · obtain ⟨content, rfl⟩ := notice
    cases printed
    exact ⟨rfl, rfl⟩
  · have written : ∀ content, item ≠ .notice content := fun content same => notice ⟨content, same⟩
    have performed : page.fresh.performAll (item.commands settings) = .ok behind := by
      rw [Item.print, Trace.outcome_bind] at printed
      · obtain ⟨after, performed, same⟩ := except_bind_eq_ok.mp printed
        cases same
        exact performed
      · exact written
    obtain ⟨added, text, fills⟩ := draws_performAll performed
    have same : print settings (.on page room) item =
        (item.commands settings).foldlM perform (.on page.fresh room) := by
      rw [print]
      · rfl
      · exact written
    have chars : behind.text.toList = added := by simp [text, Page.fresh]
    rw [Item.print_of_ok written performed, same, Event.chars_text, chars]
    exact fills room

theorem foldlM_print_fills {settings : Settings} {page behind : Page} {items : List Item}
    (printed : (Item.printAll settings page items).outcome = .ok behind) (room : Room) :
    Fills Event.chars .sinkFull room (Event.chars (Item.printAll settings page items).emitted)
      (items.foldlM (print settings) (.on page room)) fun left => .ok (.on behind left) := by
  induction items generalizing page room with
  | nil =>
      cases printed
      exact ⟨rfl, rfl⟩
  | cons item rest ih =>
      rw [Item.printAll, Trace.outcome_bind] at printed
      obtain ⟨between, first, others⟩ := except_bind_eq_ok.mp printed
      rw [Item.printAll, Trace.bind_of_ok first, Event.chars_append]
      exact (print_fills first room).bind Event.chars_append (ih others)

end Pen

namespace Bodies

variable (page : Page) (settings : Settings) (program : Program) (arena : Arena)

/-- The bodies reach a sink as they come onto a page. Behind their text only their number, or
what is wrong with the program, is left to report. -/
theorem generateInto_fills :
    ∃ behind,
      (generateOn page settings program arena).outcome =
        ((items settings program arena).outcome.mapError Failure.corrupt).map (·, behind) ∧
      ∀ room, Trace.Fills Event.chars .sinkFull room
        (Event.chars (generateOn page settings program arena).emitted)
        (generateInto (.on page room) settings program arena) fun left =>
          ((items settings program arena).outcome.mapError Failure.corrupt).map
            (·, .on behind left) := by
  obtain ⟨inside, nested, -⟩ := items_nesting settings program arena
  have place : Item.At page.depth page false := ⟨rfl, nofun⟩
  obtain ⟨⟨behind, printed, -⟩, -⟩ := printAll_nested settings place nested
  rw [generateOn_of_printed settings program arena printed]
  refine ⟨behind, rfl, fun room => ?_⟩
  rw [generateInto, ← List.append_nil (Event.chars _)]
  refine (Pen.foldlM_print_fills printed room).bind Event.chars_append fun left => ?_
  cases (items settings program arena).outcome with
  | error cause => exact ⟨rfl, rfl⟩
  | ok count => exact ⟨rfl, rfl⟩

theorem items_ne_sinkFull :
    (items settings program arena).outcome.mapError Failure.corrupt ≠ .error .sinkFull := by
  cases (items settings program arena).outcome <;> nofun

end Bodies

/-- The bodies of a program are written into a sink that takes everything as they are on a page. A
sink of limited room holds as many characters of them as it has room for, from the first one on. It
fails exactly if there are more of them. Otherwise the number of bodies, or what is wrong with the
program, is the same. -/
theorem bodies_fill_sink (page : Page) (settings : Settings) (program : Program) (arena : Arena) :
    let onPage := Bodies.generateOn page settings program arena
    let whole := Bodies.generateInto (.on page .unlimited) settings program arena
    let text := Event.textOf whole.emitted
    text = Event.textOf onPage.emitted ∧
    whole.outcome.map Prod.fst = onPage.outcome.map Prod.fst ∧
    ∀ limit : Nat,
      let cut := Bodies.generateInto (.on page ⟨some limit⟩) settings program arena
      (Event.textOf cut.emitted).toList = text.toList.take (min limit text.length) ∧
      (cut.outcome = .error .sinkFull ↔ limit < text.length) ∧
      (cut.outcome.map Prod.fst = whole.outcome.map Prod.fst ↔ text.length ≤ limit) := by
  intro onPage whole text
  obtain ⟨behind, counted, fills⟩ := Bodies.generateInto_fills page settings program arena
  have apart := Bodies.items_ne_sinkFull settings program arena
  generalize (Bodies.items settings program arena).outcome.mapError Failure.corrupt = count
    at counted fills apart
  have result {α : Type} (rest : α) : (count.map (·, rest)).map Prod.fst = count := by
    cases count <;> rfl
  obtain ⟨shown, ended⟩ := (fills .unlimited).unlimited
  refine ⟨String.toList_inj.mp shown, ?_, fun limit => ?_⟩
  · rw [ended, counted, result, result]
  · have cut := fills ⟨some limit⟩
    rw [← shown] at cut
    refine ⟨cut.emitted_limited, ?_, ?_⟩
    · apply cut.full_iff
      intro left full
      apply apart
      rw [← result (Pen.on behind left), full]
      rfl
    · constructor
      · intro same
        apply Nat.le_of_not_lt
        intro short
        rw [cut.outcome_of_lt short, ended, result] at same
        exact apart same.symm
      · intro fits
        rw [cut.outcome_of_le fits, ended, result, result]

end ThreadedCode
