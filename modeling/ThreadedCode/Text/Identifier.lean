/-!
# Identifiers

A C++ identifier is a letter or underscore followed by letters, digits and underscores, all of
them ASCII. A namespace is a path of identifiers joined by double colons.
-/

namespace ThreadedCode

namespace Identifier

/-- May the character begin an identifier? -/
def isStart (char : Char) : Bool := char.isAlpha || char == '_'

/-- May the character continue an identifier? -/
def isContinue (char : Char) : Bool := char.isAlphanum || char == '_'

/-- Are the characters an identifier? -/
def isValid : List Char → Bool
  | [] => false
  | first :: rest => isStart first && rest.all isContinue

/-- The parts of a path, which double colons separate. -/
def pathParts : List Char → List (List Char)
  | [] => [[]]
  | ':' :: ':' :: rest => [] :: pathParts rest
  | char :: rest =>
    match pathParts rest with
    | [] => [[char]]
    | part :: parts => (char :: part) :: parts

/-- Is every part of the path an identifier? -/
def isPath (chars : List Char) : Bool := (pathParts chars).all isValid

end Identifier

end ThreadedCode
