/-!
# Comments

Names are shown in comments of the generated code. A name that holds the end of a block comment
gets a blank inside it.
-/

namespace ThreadedCode

namespace Comment

/-- Breaks up every end of a block comment. -/
def guardChars : List Char → List Char
  | '*' :: '/' :: rest => '*' :: ' ' :: '/' :: guardChars rest
  | char :: rest => char :: guardChars rest
  | [] => []

/-- The text with every end of a block comment broken up. -/
def guardText (text : String) : String := String.ofList (guardChars text.toList)

end Comment

end ThreadedCode
