/-!
# Paths

A path is a text whose segments are separated by slashes. Its file name is the last segment that
names something.
-/

namespace ThreadedCode

namespace Path

/-- The characters between slashes. -/
def splitSlashes : List Char → List (List Char)
  | [] => [[]]
  | '/' :: rest => [] :: splitSlashes rest
  | char :: rest =>
    match splitSlashes rest with
    | [] => [[char]]
    | segment :: segments => (char :: segment) :: segments

/-- The segments of a path. Slashes at its ends and next to each other leave empty ones. -/
def segments (path : String) : List String := (splitSlashes path.toList).map String.ofList

/-- The file name of a path, with the segments in front of it, for segments given last to first.
Empty segments and single dots at the end are passed over, except for a single dot that is all
there is. -/
def splitName? : List String → Option (List String × String)
  | [] => none
  | segment :: before =>
    if segment = "" then splitName? before
    else if segment = "." then if before.isEmpty then none else splitName? before
    else if segment = ".." then none
    else some (before, segment)

/-- A file name without its last extension, given last to first. -/
def dropExtension (reversed : List Char) : List Char :=
  match reversed.dropWhile (· ≠ '.') with
  | [] => reversed
  | ['.'] => reversed
  | _ :: stem => stem

/-- The part of a file name in front of its last extension. A dot at the very start is part of the
name. -/
def stem (name : String) : String :=
  String.ofList (dropExtension name.toList.reverse).reverse

/-- A file name with another extension in place of its last one. A name of two dots and an extension
loses the extension only: what is left in front of it leads to the parent directory, and that takes
no extension. -/
def renamed (name extension : String) : String :=
  if stem name = "." then ".." else stem name ++ "." ++ extension

/-- The path with another extension, if it has a file name to put it on. -/
def withExtension (path extension : String) : String :=
  match splitName? (segments path).reverse with
  | none => path
  | some (before, name) =>
    "/".intercalate (before.reverse ++ [renamed name extension])

end Path

end ThreadedCode
