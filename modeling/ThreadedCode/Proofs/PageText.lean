import ThreadedCode.Text.Page

/-!
# The text on a page

Writing on a page appends the text with the indentation in front of every line that is not empty,
so outside of all blocks it appends the text as it is. A command is characterised by the text it
appends and by the state it leaves, and a sequence of commands by both in turn.
-/

namespace ThreadedCode

namespace Page

/-- The characters with the indentation in front of every line that is not empty, given whether
the first of them begins a line. -/
def indented (depth : Nat) : Bool → List Char → List Char
  | _, [] => []
  | fresh, char :: rest =>
    if char = '\n' then char :: indented depth true rest
    else (if fresh then List.replicate (4 * depth) ' ' else []) ++ char :: indented depth false rest

/-- Whether the line has begun after the characters, given whether it had begun before. -/
def begun : Bool → List Char → Bool
  | before, [] => before
  | _, char :: rest => begun (decide (char ≠ '\n')) rest

@[simp] theorem indented_append (depth : Nat) (fresh : Bool) (chars more : List Char) :
    indented depth fresh (chars ++ more) =
      indented depth fresh chars ++ indented depth (!begun (!fresh) chars) more := by
  induction chars generalizing fresh with
  | nil => simp [indented, begun]
  | cons char rest ih =>
      by_cases ends : char = '\n'
      · simp [indented, begun, ends, ih]
      · simp [indented, begun, ends, ih]

@[simp] theorem begun_append (before : Bool) (chars more : List Char) :
    begun before (chars ++ more) = begun (begun before chars) more := by
  induction chars generalizing before with
  | nil => rfl
  | cons char rest ih => exact ih _

/-- A closing parenthesis leaves its line open. -/
theorem begun_parenthesis (before : Bool) (text : String) :
    begun before (text ++ ")").toList = true := by
  rw [String.toList_append, begun_append]
  generalize begun before text.toList = middle
  simp [begun]

/-- Outside of all blocks nothing is indented. -/
@[simp] theorem indented_zero (fresh : Bool) (chars : List Char) :
    indented 0 fresh chars = chars := by
  induction chars generalizing fresh with
  | nil => rfl
  | cons char rest ih => simp [indented, ih]

theorem indented_midLine (depth : Nat) (char : Char) (rest : List Char) :
    indented depth false (char :: rest) =
      char :: indented depth (decide (char = '\n')) rest := by
  by_cases ends : char = '\n'
  · simp [indented, ends]
  · simp [indented, ends]

theorem indented_begun (depth : Nat) {chars : List Char} (whole : '\n' ∉ chars) :
    indented depth false chars = chars := by
  induction chars with
  | nil => rfl
  | cons char rest ih =>
      rw [List.mem_cons, not_or] at whole
      simp [indented, Ne.symm whole.1, ih whole.2]

/-- A line that is not empty gets the indentation in front. -/
theorem indented_line (depth : Nat) {chars : List Char} (whole : '\n' ∉ chars)
    (filled : chars ≠ []) :
    indented depth true chars = List.replicate (4 * depth) ' ' ++ chars := by
  cases chars with
  | nil => exact absurd rfl filled
  | cons char rest =>
      rw [List.mem_cons, not_or] at whole
      simp [indented, Ne.symm whole.1, indented_begun depth whole.2]

/-- Indentation brings in nothing but blanks. -/
theorem not_mem_indented {depth : Nat} {fresh : Bool} {chars : List Char} {char : Char}
    (filled : char ≠ ' ') (outside : char ∉ chars) : char ∉ indented depth fresh chars := by
  induction chars generalizing fresh with
  | nil => exact outside
  | cons first rest ih =>
      rw [List.mem_cons, not_or] at outside
      by_cases ends : first = '\n'
      · simp only [indented, ends, if_true, List.mem_cons, not_or]
        exact ⟨ends ▸ outside.1, ih outside.2⟩
      · simp only [indented, ends, if_false, List.mem_append, List.mem_cons, not_or]
        refine ⟨?_, outside.1, ih outside.2⟩
        split <;> simp [List.mem_replicate, filled]

theorem getLast?_indented (depth : Nat) (fresh : Bool) (chars : List Char) :
    (indented depth fresh chars).getLast? = chars.getLast? := by
  induction chars generalizing fresh with
  | nil => rfl
  | cons char rest ih =>
      simp only [indented]
      split
      · rw [List.getLast?_cons, List.getLast?_cons, ih]
      · rw [List.getLast?_append, List.getLast?_cons, List.getLast?_cons, ih]
        rfl

/-- Behind the beginning of a line nothing is indented up to its end. -/
theorem indented_append_begun (depth : Nat) (fresh : Bool) {chars : List Char}
    (begins : ∀ before, begun before chars = true) (more : List Char) :
    indented depth fresh (chars ++ more) =
      indented depth fresh chars ++ indented depth false more := by
  rw [indented_append, begins, Bool.not_true]

/-- The page with characters appended to it, indented as the state of the page asks for. -/
def appended (page : Page) (chars : List Char) : Page :=
  ⟨page.text ++ String.ofList (indented page.depth (!page.midLine) chars), page.depth,
    begun page.midLine chars⟩

theorem appended_nil (page : Page) : page.appended [] = page := by
  simp [appended, indented, begun]

theorem appended_append (page : Page) (chars more : List Char) :
    (page.appended chars).appended more = page.appended (chars ++ more) := by
  simp [appended, ← String.toList_inj]

theorem begun_of_plain {chars : List Char} (plain : '\n' ∉ chars) (filled : chars ≠ [])
    (before : Bool) : begun before chars = true := by
  rw [← List.dropLast_concat_getLast filled, begun_append]
  have last : chars.getLast filled ≠ '\n' := fun ends => plain (ends ▸ List.getLast_mem filled)
  simp [begun, last]

/-- What is there of a line is indented if it begins the line. -/
theorem putLine_plain (page : Page) {chars : List Char} (plain : '\n' ∉ chars)
    (filled : chars ≠ []) : page.putLine chars = page.appended chars := by
  have apart : chars ≠ ['\n'] := by
    rintro rfl
    exact plain (List.mem_singleton.mpr rfl)
  have last : chars.getLast? ≠ some '\n' := fun ends => plain (List.mem_of_getLast? ends)
  obtain ⟨text, depth, midLine⟩ := page
  cases midLine with
  | false =>
      simp [putLine, indent, appended, apart, last, begun_of_plain plain filled, indentation,
        indented_line depth plain filled, ← String.toList_inj]
  | true =>
      simp [putLine, indent, appended, apart, last, begun_of_plain plain filled,
        indented_begun depth plain]

/-- A line end follows what is there of its line. -/
theorem putLine_ended (page : Page) {chars : List Char} (plain : '\n' ∉ chars) :
    page.putLine (chars ++ ['\n']) = page.appended (chars ++ ['\n']) := by
  by_cases filled : chars = []
  · subst filled
    simp [putLine, appended, indented, begun]
  · obtain ⟨text, depth, midLine⟩ := page
    cases midLine with
    | false =>
        simp [putLine, indent, appended, filled, begun, indentation, indented,
          indented_line depth plain filled, ← String.toList_inj]
    | true =>
        simp [putLine, indent, appended, filled, begun, indented, indented_begun depth plain]

/-- Writing line by line appends the indented text. -/
theorem foldl_putLine_linesFrom (page : Page) {front : List Char} (plain : '\n' ∉ front)
    (chars : List Char) :
    (linesFrom front chars).foldl putLine page = page.appended (front.reverse ++ chars) := by
  have inside : '\n' ∉ front.reverse := by simpa using plain
  induction chars generalizing page front with
  | nil =>
      by_cases filled : front = []
      · simp [linesFrom, filled, appended_nil]
      · simp [linesFrom, filled, putLine_plain page inside]
  | cons char rest ih =>
      by_cases ends : char = '\n'
      · subst ends
        simp [linesFrom, putLine_ended page inside, ih, appended_append]
      · have still : '\n' ∉ char :: front := by simp [plain, Ne.symm ends]
        simp [linesFrom, ends, ih page still, plain, Ne.symm ends]

/-- Writing appends the indented text. -/
theorem write_eq (page : Page) (text : String) :
    page.write text =
      ⟨page.text ++ String.ofList (indented page.depth (!page.midLine) text.toList), page.depth,
        begun page.midLine text.toList⟩ :=
  foldl_putLine_linesFrom page List.not_mem_nil text.toList

/-- The text with the indentation in front of every line that is not empty. -/
def indentText (depth : Nat) (text : String) : String :=
  String.ofList (indented depth true text.toList)

@[simp] theorem indentText_zero (text : String) : indentText 0 text = text := by
  simp [indentText]

theorem indentText_ne_empty {text : String} (filled : text ≠ "") (depth : Nat) :
    indentText depth text ≠ "" := by
  unfold indentText
  cases chars : text.toList with
  | nil => exact absurd (String.toList_eq_nil_iff.mp chars) filled
  | cons char rest => by_cases ends : char = '\n' <;> simp [indented, ends]

/-- Indenting what is indented already adds up. -/
theorem indented_indented (depth inner : Nat) (fresh : Bool) (chars : List Char) :
    indented depth fresh (indented inner fresh chars) = indented (depth + inner) fresh chars := by
  induction chars generalizing fresh with
  | nil => rfl
  | cons char rest ih =>
      by_cases ends : char = '\n'
      · simp [indented, ends, ih]
      · cases fresh with
        | false => simp [indented, ends, ih]
        | true =>
            -- the blanks and the character together are a line that has begun
            have whole : '\n' ∉ List.replicate (4 * inner) ' ' ++ [char] := by
              simp [List.mem_replicate, Ne.symm ends]
            have begins : begun false (List.replicate (4 * inner) ' ' ++ [char]) = true := by
              rw [begun_append]
              simp [begun, ends]
            have blanks : List.replicate (4 * (depth + inner)) ' ' =
                List.replicate (4 * depth) ' ' ++ List.replicate (4 * inner) ' ' := by
              rw [Nat.mul_add, List.replicate_append_replicate]
            simp only [indented, if_neg ends, if_true]
            rw [List.append_cons, indented_append, indented_line depth whole (by simp),
              Bool.not_true, begins, Bool.not_true, ih, blanks]
            simp only [List.append_assoc, List.singleton_append]

theorem begun_indented (depth : Nat) (fresh : Bool) (chars : List Char) :
    begun (!fresh) (indented depth fresh chars) = begun (!fresh) chars := by
  induction chars generalizing fresh with
  | nil => rfl
  | cons char rest ih =>
      by_cases ends : char = '\n'
      · simpa [indented, begun, ends] using ih true
      · simpa [indented, begun, ends] using ih false

/-- The text is empty or ends with the end of a line. -/
def EndsLine (text : String) : Prop := begun false text.toList = false

instance (text : String) : Decidable (EndsLine text) := inferInstanceAs (Decidable (_ = _))

theorem endsLine_empty : EndsLine "" := rfl

theorem endsLine_newline (text : String) : EndsLine (text ++ "\n") := by
  simp [EndsLine, begun]

theorem newline_ne_empty (text : String) : text ++ "\n" ≠ "" :=
  fun empty => absurd (String.append_eq_empty_iff.mp empty).2 (by decide)

/-- What counts is how the text ends. -/
theorem EndsLine.after {tail : String} (ends : EndsLine tail) (filled : tail ≠ "") (text : String) :
    EndsLine (text ++ tail) := by
  unfold EndsLine at *
  rw [String.toList_append, begun_append]
  cases chars : tail.toList with
  | nil => exact absurd (String.toList_eq_nil_iff.mp chars) filled
  | cons char rest =>
      rw [chars] at ends
      exact ends

theorem EndsLine.append {text more : String} (first : EndsLine text) (second : EndsLine more) :
    EndsLine (text ++ more) := by
  unfold EndsLine at *
  rw [String.toList_append, begun_append, first, second]

/-- Whole lines come to the start of a line, wherever they begin. -/
theorem EndsLine.begun_eq {text : String} (ends : EndsLine text) (filled : text ≠ "")
    (before : Bool) : begun before text.toList = false := by
  unfold EndsLine at ends
  cases chars : text.toList with
  | nil => exact absurd (String.toList_eq_nil_iff.mp chars) filled
  | cons char rest =>
      rw [chars] at ends
      exact ends

/-- Lines keep their ends when they are indented. -/
theorem EndsLine.indentText {text : String} (ends : EndsLine text) (depth : Nat) :
    EndsLine (indentText depth text) := by
  have same := begun_indented depth true text.toList
  unfold EndsLine at *
  rw [Page.indentText, String.toList_ofList]
  exact same.trans ends

/-- The text as it is written on a page of the given depth, given whether a line has begun. -/
def inlineText (depth : Nat) (midLine : Bool) (text : String) : String :=
  String.ofList (indented depth (!midLine) text.toList)

theorem write_text (page : Page) (text : String) :
    (page.fresh.write text).text = inlineText page.depth page.midLine text := by
  rw [write_eq]
  exact String.empty_append

theorem inlineText_indentText (depth inner : Nat) (text : String) :
    inlineText depth false (indentText inner text) = inlineText (depth + inner) false text := by
  simp [inlineText, indentText, indented_indented]

/-- Once whole lines are written, no line has begun. -/
theorem inlineText_append (depth : Nat) (midLine : Bool) {text : String} (ends : EndsLine text)
    (filled : text ≠ "") (more : String) :
    inlineText depth midLine (text ++ more) =
      inlineText depth midLine text ++ inlineText depth false more := by
  simp [inlineText, ends.begun_eq filled]

theorem endsLine_join {texts : List String} (ends : ∀ text ∈ texts, EndsLine text) :
    EndsLine (String.join texts) := by
  induction texts with
  | nil => exact endsLine_empty
  | cons text rest ih =>
      rw [String.join_cons]
      exact (ends text List.mem_cons_self).append
        (ih fun later member => ends later (List.mem_cons_of_mem text member))

/-- At the start of a line and with the given number of open blocks, the commands append the text
and come to the start of a line, with the other number of open blocks. -/
def Appends (depth : Nat) (commands : List Command) (text : String) (after : Nat) : Prop :=
  ∀ written, performAll ⟨written, depth, false⟩ commands = .ok ⟨written ++ text, after, false⟩

theorem appends_nil (depth : Nat) : Appends depth [] "" depth := by
  intro written
  rw [String.append_empty]
  rfl

theorem Appends.append {depth middle after : Nat} {commands more : List Command}
    {text moreText : String} (first : Appends depth commands text middle)
    (second : Appends middle more moreText after) :
    Appends depth (commands ++ more) (text ++ moreText) after := by
  intro written
  rw [performAll, List.foldlM_append, ← performAll, first written, ← String.append_assoc]
  exact second (written ++ text)

theorem appends_flatMap {α : Type} {depth : Nat} {items : List α} {commands : α → List Command}
    {text : α → String} (each : ∀ item ∈ items, Appends depth (commands item) (text item) depth) :
    Appends depth (items.flatMap commands) (String.join (items.map text)) depth := by
  induction items with
  | nil => exact appends_nil depth
  | cons item rest ih =>
      rw [List.flatMap_cons, List.map_cons, String.join_cons]
      exact (each item List.mem_cons_self).append
        (ih fun later member => each later (List.mem_cons_of_mem item member))

theorem appends_write (depth : Nat) {text : String} (ends : EndsLine text) :
    Appends depth [.write text] (indentText depth text) depth := by
  intro written
  have same : performAll ⟨written, depth, false⟩ [.write text] =
      .ok (write ⟨written, depth, false⟩ text) := rfl
  rw [same, write_eq]
  exact congrArg (fun midLine => Except.ok (⟨_, depth, midLine⟩ : Page)) ends

/-- Outside of all blocks lines are written as they are. -/
theorem appends_write_flat {text : String} (ends : EndsLine text) :
    Appends 0 [.write text] text 0 := by
  have written := appends_write 0 ends
  rwa [indentText_zero] at written

/-- A text is written, and its last line ended. -/
theorem appends_ended (depth : Nat) (text : String) :
    Appends depth [.write text, .newline] (indentText depth text ++ "\n") depth := by
  intro written
  have same : performAll ⟨written, depth, false⟩ [.write text, .newline] =
      .ok (write ⟨written, depth, false⟩ text).newline := rfl
  rw [same, write_eq, newline]
  simp [indentText, ← String.toList_inj]

/-- A line is written and ended. -/
theorem appends_line (depth : Nat) {line : String} (whole : '\n' ∉ line.toList)
    (filled : line ≠ "") :
    Appends depth [.write line, .newline] (indentation depth ++ line ++ "\n") depth := by
  have chars : line.toList ≠ [] := fun empty => filled (String.toList_eq_nil_iff.mp empty)
  have spelled : indentText depth line = indentation depth ++ line := by
    simp [indentText, indented_line depth whole chars, indentation]
  rw [← spelled]
  exact appends_ended depth line

/-- A line that is ended in the text itself. -/
theorem indentText_line (depth : Nat) {line : String} (whole : '\n' ∉ line.toList)
    (filled : line ≠ "") :
    indentText depth (line ++ "\n") = indentation depth ++ line ++ "\n" := by
  have chars : line.toList ≠ [] := fun empty => filled (String.toList_eq_nil_iff.mp empty)
  simp [indentText, indented_line depth whole chars, indented, indentation, ← String.toList_inj]

/-- A block that opens on a line of its own. -/
theorem appends_openBlock (depth : Nat) :
    Appends depth [.openBlock] (indentation depth ++ "\x7b" ++ "\n") (depth + 1) := by
  intro written
  have same : performAll ⟨written, depth, false⟩ [.openBlock] =
      .ok (openBlock ⟨written, depth, false⟩) := rfl
  rw [same, openBlock, write_eq]
  simp [begun, indented, indentation, ← String.toList_inj]

theorem performAll_write (page : Page) {text : String} (ends : EndsLine text)
    (filled : text ≠ "") :
    page.performAll [.write text] =
      .ok ⟨page.text ++ inlineText page.depth page.midLine text, page.depth, false⟩ := by
  have same : page.performAll [.write text] = .ok (page.write text) := rfl
  rw [same, write_eq, ends.begun_eq filled]
  rfl

/-- A block that opens on the line of a head, which may continue a line itself. -/
theorem performAll_head (page : Page) {head : String}
    (begins : begun page.midLine head.toList = true) :
    page.performAll [.write head, .openBlock] =
      .ok ⟨page.text ++ inlineText page.depth page.midLine (head ++ " \x7b\n"), page.depth + 1,
        false⟩ := by
  have same : page.performAll [.write head, .openBlock] = .ok (page.write head).openBlock := rfl
  rw [same, write_eq, begins, openBlock, write_eq]
  simp [begun, begins, inlineText, String.append_assoc]

theorem appends_head {head : String} (begins : begun false head.toList = true) :
    Appends 0 [.write head, .openBlock] (head ++ " \x7b\n") 1 := by
  intro written
  rw [performAll_head _ begins]
  simp [inlineText]

theorem appends_closeBlock (depth : Nat) :
    Appends (depth + 1) [.closeBlock] (indentText depth "\x7d\n") depth := by
  intro written
  have same : performAll ⟨written, depth + 1, false⟩ [.closeBlock] =
      .ok (write ⟨written, depth, false⟩ "\x7d\n") := rfl
  rw [same, write_eq]
  simp [begun, indentText]

theorem appends_closeDeclaration (depth : Nat) :
    Appends (depth + 1) [.closeDeclaration] (indentation depth ++ "\x7d;" ++ "\n") depth := by
  intro written
  have same : performAll ⟨written, depth + 1, false⟩ [.closeDeclaration] =
      .ok (write ⟨written, depth, false⟩ "\x7d;\n") := rfl
  rw [same, write_eq]
  simp [begun, indented, indentation, ← String.toList_inj]

end Page

end ThreadedCode
