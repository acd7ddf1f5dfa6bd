import ThreadedCode.CommandLine.Path
import ThreadedCode.Text.Utf8

/-!
# Files

A tree of files, with a working directory that relative paths start from. A place in the tree is
the list of names that lead to it from the root. Directories are there because something is in
them.
-/

namespace ThreadedCode

/-- Why a file cannot be read or written. -/
inductive FileFault where
  /-- There is nothing at the path. -/
  | notFound
  /-- The path goes on behind a file. -/
  | notADirectory
  /-- The path leads to a directory. -/
  | isADirectory
  /-- The path or a name in it is longer than the system takes. -/
  | nameTooLong
  deriving DecidableEq, Repr

/-- A place in a tree of files. -/
abbrev Place := List String

/-- What is at a place. -/
inductive Node where
  | file (content : Bytes)
  | directory
  deriving DecidableEq, Repr

/-- Files by their places, and the working directory. -/
structure FileTree where
  home : Place
  files : List (Place × Bytes)
  deriving DecidableEq, Repr

namespace FileTree

/-- The content of the file at a place. -/
def contentAt? (tree : FileTree) (place : Place) : Option Bytes := tree.files.lookup place

/-- Is the place a directory, because the working directory or a file is in it? -/
def isDirectory (tree : FileTree) (place : Place) : Bool :=
  place.isPrefixOf tree.home || tree.files.any fun entry => place.isPrefixOf entry.1

/-- What is at a place. -/
def node? (tree : FileTree) (place : Place) : Option Node :=
  match tree.contentAt? place with
  | some content => some (.file content)
  | none => if tree.isDirectory place then some .directory else none

/-- The place that a segment leads to from a directory. The root is its own parent. -/
def step (place : Place) (segment : String) : Place :=
  if segment = "" ∨ segment = "." then place
  else if segment = ".." then place.dropLast
  else place ++ [segment]

/-- The longest name that a file or directory can have, in bytes. -/
def nameLimit : Nat := 255

/-- The longest path that can be followed, in bytes. -/
def pathLimit : Nat := 4095

/-- A place can be entered if it is a directory. -/
def enter (tree : FileTree) (place : Place) : Except FileFault Unit :=
  match tree.node? place with
  | none => .error .notFound
  | some (.file _) => .error .notADirectory
  | some .directory => .ok ()

/-- Follows a segment from a place, which must be a directory. -/
def follow (tree : FileTree) (place : Place) (segment : String) : Except FileFault Place := do
  tree.enter place
  if segment.utf8ByteSize ≤ nameLimit then .ok (step place segment) else .error .nameTooLong

/-- The segments of a path that is short enough to be followed. -/
def segmentsOf (path : String) : Except FileFault (List String) :=
  if path.utf8ByteSize ≤ pathLimit then .ok (Path.segments path) else .error .nameTooLong

/-- The place where a path starts. -/
def origin (tree : FileTree) (segments : List String) : Place :=
  if segments.head? = some "" then [] else tree.home

/-- The content of the file at a path. -/
def read (tree : FileTree) (path : String) : Except FileFault Bytes := do
  let segments ← segmentsOf path
  let place ← segments.foldlM tree.follow (tree.origin segments)
  match tree.node? place with
  | none => .error .notFound
  | some .directory => .error .isADirectory
  | some (.file content) => .ok content

/-- The tree with a file at a place, in front of all others. -/
def insert (tree : FileTree) (place : Place) (content : Bytes) : FileTree :=
  { tree with files := (place, content) :: tree.files.filter fun entry => entry.1 ≠ place }

/-- The place of a file to be written at a path. Its directory must be there, and the path must not
end like that of a directory. -/
def target (tree : FileTree) (path : String) : Except FileFault Place := do
  let segments ← segmentsOf path
  match segments.reverse.dropWhile (· = "") with
  | [] => .error .isADirectory
  | name :: before => do
    let directory ← before.reverse.foldlM tree.follow (tree.origin segments)
    tree.enter directory
    if name = "." ∨ name = ".." ∨ segments.getLast? = some "" then .error .isADirectory
    else tree.follow directory name

/-- Writes the file at a path, in place of what was there. -/
def write (tree : FileTree) (path : String) (content : Bytes) : Except FileFault FileTree := do
  let place ← tree.target path
  match tree.node? place with
  | some .directory => .error .isADirectory
  | _ => .ok (tree.insert place content)

/-- The tree with the given files below its working directory. -/
def ofFiles (home : Place) (files : List (String × Bytes)) : FileTree :=
  files.foldl
    (fun tree (name, content) => tree.insert ((Path.segments name).foldl step home) content)
    ⟨home, []⟩

/-- The files below the working directory that are new or have another content than before, by
their paths from there. -/
def changes (before after : FileTree) : List (String × Bytes) :=
  after.files.filterMap fun (place, content) =>
    if before.contentAt? place = some content then none
    else (after.home.isPrefixOf? place).map fun names => ("/".intercalate names, content)

end FileTree

end ThreadedCode
