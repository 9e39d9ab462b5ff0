import ServiceHost.Text.Segments

/-!
# Files — paths and a tree of files and directories

What a host sees of its surroundings is a snapshot: the files that are there, and where it runs.
A path is resolved step by step from the root or from the working directory, so `a/../b` needs
`a` to be there, and `a/.` needs it to be a directory. Two paths are the **same** when they agree
component by component, which is finer than leading to one place: `/a/b` is `/a//b/.`, and not
`/a/c/../b`.

A directory is made in one that is there. Where the way to it is missing, the way is made first,
and **what has been made stays** also when a later step fails (`Making`). A file never takes the
place of a directory, and a path that is too long leads nowhere, whatever it would lead to.
-/

set_option autoImplicit false

namespace ServiceHost

/-- A path as it was written. -/
abbrev Path := String

namespace Path

/-- A path from the root. -/
def isAbsolute (path : Path) : Bool :=
  ['/'].isPrefixOf path.toList

/-- The names along a path as they are written, `.` among them; empty ones do not count. -/
def names (path : Path) : List String :=
  (Text.segments '/' path).filter (· ≠ "")

/-- The names along a path that lead somewhere else. -/
def components (path : Path) : List String :=
  path.names.filter (· ≠ ".")

/-- The path ends in a separator, and so can only lead to a directory. -/
def endsInSeparator (path : Path) : Bool :=
  path.toList.getLast? = some '/'

/-- A path that goes on from a directory: with a separator between the two, unless the directory
ends in one. -/
def join (directory path : Path) : Path :=
  if directory.endsInSeparator then directory ++ path else directory ++ "/" ++ path

/-- The paths agree component by component. -/
def same (path other : Path) : Bool :=
  path.isAbsolute = other.isAbsolute && path.components = other.components

end Path

/-- What stands at a place in a tree of files. -/
inductive FileNode where
  | directory
  | file (content : String)
  /-- Something that is neither, as a device. -/
  | special
deriving DecidableEq, Repr

/-- Why a path leads nowhere, or a directory could not be made. -/
inductive FileError where
  | notFound
  | alreadyExists
  | notADirectory
  | nameTooLong
  /-- The path holds the character NUL, which ends every name. -/
  | nulInName
deriving DecidableEq, Repr

/-- The sentence of the operating system. -/
def FileError.message : FileError → String
  | .notFound => "No such file or directory (os error 2)"
  | .alreadyExists => "File exists (os error 17)"
  | .notADirectory => "Not a directory (os error 20)"
  | .nameTooLong => "File name too long (os error 36)"
  | .nulInName => "file name contained an unexpected NUL byte"

namespace Path

/-- The greatest number of bytes of a name. -/
def nameLimit : Nat := 255

/-- The greatest number of bytes of a path. -/
def limit : Nat := 4095

/-- The names along a path that the operating system takes. -/
def readNames (path : Path) : Except FileError (List String) :=
  if path.toList.contains '\x00' then .error .nulInName
  else if limit < path.utf8ByteSize then .error .nameTooLong
  else .ok path.names

end Path

/-- Files and directories under the names that lead to them from the root, and the names that
lead to the working directory. -/
structure FileTree where
  nodes : List (List String × FileNode) := []
  working : List String := []

instance : Inhabited FileTree := ⟨{}⟩

namespace FileTree

/-- What stands at a place. The root is always a directory. -/
def at? (tree : FileTree) (place : List String) : Option FileNode :=
  if place.isEmpty then some .directory
  else (tree.nodes.find? (·.1 = place)).map (·.2)

/-- The tree with a node at a place. -/
def put (tree : FileTree) (place : List String) (node : FileNode) : FileTree :=
  { tree with nodes := (place, node) :: tree.nodes.filter (·.1 ≠ place) }

/-- The place that names lead to from a place. Every name is looked up in a directory, also `.`
and `..`; the place of the last one may be empty. -/
def walk (tree : FileTree) :
    (place : List String) → (names : List String) → Except FileError (List String)
  | place, [] => .ok place
  | place, name :: rest =>
    match tree.at? place with
    | none => .error .notFound
    | some .directory =>
      if name = "." then walk tree place rest
      else if name = ".." then walk tree place.dropLast rest
      else if Path.nameLimit < name.utf8ByteSize then .error .nameTooLong
      else walk tree (place ++ [name]) rest
    | some _ => .error .notADirectory

/-- The place from which a path starts. -/
def start (tree : FileTree) (path : Path) : List String :=
  if path.isAbsolute then [] else tree.working

/-- The place that a path leads to, at which nothing need stand. -/
def place? (tree : FileTree) (path : Path) : Option (List String) :=
  if path = "" then none
  else match path.readNames with
    | .error _ => none
    | .ok names =>
      let names := if path.endsInSeparator then names ++ ["."] else names
      (tree.walk (tree.start path) names).toOption

def find? (tree : FileTree) (path : Path) : Option FileNode :=
  (tree.place? path).bind tree.at?

def has (tree : FileTree) (path : Path) : Bool :=
  (tree.find? path).isSome

/-- The content of the file that a path leads to. -/
def read? (tree : FileTree) (path : Path) : Option String :=
  match tree.find? path with
  | some (.file content) => some content
  | _ => none

/-! ## Making directories -/

/-- Making directories, which may fail. Those made by then stay. -/
abbrev Making := StateM FileTree (Except FileError Unit)

/-- The tree in which names lead to a directory, from a place: one that is there, or a new one in
a directory that is there. -/
def withDirectory (tree : FileTree) (start names : List String) : Except FileError FileTree := do
  let place ← tree.walk start (names.dropLast ++ ["."])
  match names.getLast? with
  | none | some "." | some ".." => return tree
  | some name =>
    let place ← tree.walk place [name]
    match tree.at? place with
    | some .directory => return tree
    | some _ => throw .alreadyExists
    | none => return tree.put place .directory

/-- Sees to it that names lead to a directory. -/
def makeLast (start names : List String) : Making := fun tree =>
  match tree.withDirectory start names with
  | .ok tree => (.ok (), tree)
  | .error error => (.error error, tree)

/-- Sees to it that names lead to a directory. Where something on the way is missing, `before`
sees to that, and then it is tried once more. -/
def makeAfter (before : Making) (start names : List String) : Making := do
  match ← makeLast start names with
  | .error .notFound =>
    match ← before with
    | .ok () => makeLast start names
    | .error error => return .error error
  | outcome => return outcome

/-- Sees to it that names lead through directories to a directory. The names stand in reverse. -/
def makeThrough (start : List String) : (reversed : List String) → Making
  | [] => return .ok ()
  | name :: before => makeAfter (makeThrough start before) start (name :: before).reverse

/-- Makes a directory and, where they are missing, those on the way to it. A path that ends in
`.` asks for a directory that is there: those before its last name are made, and it is not. -/
def makeDirectory (path : Path) : Making := fun tree =>
  match path.readNames with
  | .error error => (.error error, tree)
  | .ok names =>
    let start := tree.start path
    makeAfter (makeThrough start path.components.dropLast.reverse) start names tree

/-! ## Writing files -/

/-- Sees to it that a path leads to something: to a new, empty file where nothing stands in a
directory that is there. -/
def touch (tree : FileTree) (path : Path) : FileTree :=
  match tree.place? path with
  | some place => if (tree.at? place).isNone then tree.put place (.file "") else tree
  | none => tree

/-- Writes a file and makes the directories on the way to it; no file is written where one of
them cannot be made, nor where a directory or a device stands. -/
def write (tree : FileTree) (path : Path) (content : String) : FileTree :=
  let (_, tree) := makeThrough (tree.start path) path.components.dropLast.reverse tree
  match tree.place? path with
  | none => tree
  | some place =>
    match tree.at? place with
    | some .directory | some .special => tree
    | some (.file _) | none => tree.put place (.file content)

/-! ## Full paths -/

/-- The full paths that a path may stand for: itself, or, where it is relative, the path from the
working directory and from every directory above that, the nearest first. -/
def fullPaths (tree : FileTree) (path : Path) : List Path :=
  if path.isAbsolute then [path]
  else (List.range (tree.working.length + 1)).reverse.map fun depth =>
    Path.join ("/" ++ "/".intercalate (tree.working.take depth)) path

end FileTree

end ServiceHost
