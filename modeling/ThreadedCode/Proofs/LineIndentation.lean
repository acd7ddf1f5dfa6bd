import ThreadedCode.Proofs.PageText

/-!
# Texts written in pieces

A text reaches a page in pieces, which may be cut anywhere, also within a line or right before its
end. Where the cuts are does not matter. From the start of a line on, what the page takes is the
text with the indentation in front of every line that is not empty, where the lines are what stands
between the line ends.
-/

namespace ThreadedCode

namespace Page

/-- A line as it stands inside some open blocks. An empty line is not indented. -/
def indentLine (depth : Nat) (line : List Char) : List Char :=
  if line.isEmpty then [] else List.replicate (4 * depth) ' ' ++ line

theorem indented_eq_indentLine (depth : Nat) {line : List Char} (plain : '\n' ∉ line) :
    indented depth true line = indentLine depth line := by
  by_cases filled : line = []
  · rw [filled]
    rfl
  · simp [indented_line depth plain filled, indentLine, filled]

/-- Characters are indented line by line. -/
theorem indented_eq_intercalate (depth : Nat) (chars : List Char) :
    indented depth true chars =
      ['\n'].intercalate ((chars.splitOn '\n').map (indentLine depth)) := by
  by_cases broken : '\n' ∈ chars
  · obtain ⟨line, rest, rfl, plain⟩ := List.eq_append_cons_of_mem broken
    have later := indented_eq_intercalate depth rest
    have front : indented depth true (line ++ '\n' :: rest) =
        indentLine depth line ++ '\n' :: indented depth true rest := by
      rw [indented_append, indented_eq_indentLine depth plain]
      simp [indented]
    have others : (rest.splitOn '\n').map (indentLine depth) ≠ [] := by
      simp [List.splitOn_ne_nil]
    rw [front, later, List.splitOn_append_cons_self_of_not_mem plain, List.map_cons,
      List.intercalate_cons_of_ne_nil others, List.append_assoc, List.singleton_append]
  · rw [indented_eq_indentLine depth broken, List.splitOn_eq_singleton broken]
    simp
termination_by chars.length

/-- Writing goes on in the middle of a text as if it had not stopped there. -/
theorem write_append (page : Page) (text more : String) :
    (page.write text).write more = page.write (text ++ more) := by
  calc
    (page.write text).write more
        = (page.appended text.toList).appended more.toList := by rw [write_eq, write_eq]; rfl
    _ = page.appended (text.toList ++ more.toList) := page.appended_append _ _
    _ = page.write (text ++ more) := by rw [write_eq, String.toList_append]; rfl

theorem foldl_write (page : Page) (pieces : List String) :
    pieces.foldl write page = page.write (String.join pieces) := by
  induction pieces generalizing page with
  | nil => rfl
  | cons piece rest ih => rw [List.foldl_cons, ih, write_append, String.join_cons]

end Page

/-- Pieces of a text leave the page as the whole text does. At the start of a line the text is
appended with the indentation of the open blocks in front of each line that is not empty. With no
open block it is appended as it is. -/
theorem pieces_write_indented_lines (page : Page) (pieces : List String) :
    pieces.foldl Page.write page = page.write (String.join pieces) ∧
    (page.midLine = false →
      (pieces.foldl Page.write page).text = page.text ++ String.ofList
        (['\n'].intercalate
          (((String.join pieces).toList.splitOn '\n').map (Page.indentLine page.depth)))) ∧
    (page.depth = 0 →
      (pieces.foldl Page.write page).text = page.text ++ String.join pieces) := by
  rw [Page.foldl_write, Page.write_eq]
  refine ⟨rfl, ?_, ?_⟩
  · intro fresh
    rw [← Page.indented_eq_intercalate, fresh]
    rfl
  · intro outside
    rw [outside, Page.indented_zero, String.ofList_toList]

/-- Two lines and an empty one between them, cut within a line, before its end and behind it. -/
def cutLines : List String := ["a", "b;", "\n", "\nc;\n"]

theorem pieces_write_indented_lines_cutLines :
    (cutLines.foldl Page.write ⟨"\x7b\n", 1, false⟩).text = "\x7b\n    ab;\n\n    c;\n" ∧
      (cutLines.foldl Page.write ⟨"// ", 0, true⟩).text = "// ab;\n\nc;\n" := by
  constructor
  · exact ((pieces_write_indented_lines ⟨"\x7b\n", 1, false⟩ cutLines).2.1 rfl).trans (by decide)
  · exact ((pieces_write_indented_lines ⟨"// ", 0, true⟩ cutLines).2.2 rfl).trans (by decide)

end ThreadedCode
