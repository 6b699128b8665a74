import FlatMemory.FileTree.Node
import FlatMemory.Source
import FlatMemory.Text.Fields

/-!
# File trees

A file tree says what can be opened under which path.  It always has a root, the
devices `/dev/null`, `/dev/zero` and `/dev/full`, and a working directory, in which a
path starts that does not start at the root.

## Main definitions

* `FileTree` — the root and the working directory.
* `FileTree.insertFile`, `FileTree.insertDirectory` — add a file or a directory, and
  the directories on the way to it.
* `FileTree.resolve` — follows a path name by name.
* `FileTree.openFile` — the open file of a path, which is a source.
-/

namespace FlatMemory

/-- Everything that can be reached from a root. -/
structure FileTree where
  root : Node
  workingDirectory : Location
  deriving Repr

namespace FileTree

def bare : FileTree where
  root := .directory
    [("dev", .directory [("full", .zeros), ("null", .empty), ("zero", .zeros)]),
      ("tmp", .directory [("work", .directory [])])]
  workingDirectory := ["tmp", "work"]

/-! ### Growing a tree -/

/-- The names in a path; an empty name says nothing. -/
def names (path : String) : List String :=
  ((Text.fields '/' path.toList).filter fun name => name ≠ []).map String.ofList

/-- The location that a name leads to, whatever is there. -/
def descend (loc : Location) (name : String) : Location :=
  if name = "." then loc
  else if name = ".." then loc.dropLast
  else loc ++ [name]

/-- Where a path starts. -/
def origin (t : FileTree) (path : String) : Location :=
  if path.toList.head? = some '/' then [] else t.workingDirectory

def insert (t : FileTree) (loc : Location) (n : Node) : FileTree :=
  { t with root := t.root.insert loc n }

def makeDirectory (t : FileTree) (loc : Location) : FileTree :=
  if (t.root.find? loc).isSome then t else t.insert loc (.directory [])

/-- Makes a directory of every location that names lead to one after the other, also of
those that are left again through `..`. -/
def makeWay (t : FileTree) (loc : Location) : List String → FileTree
  | [] => t
  | name :: names =>
    (t.makeDirectory (descend loc name)).makeWay (descend loc name) names

def insertDirectory (t : FileTree) (path : String) : FileTree :=
  t.makeWay (t.origin path) (names path)

def insertFile (t : FileTree) (path : String) (content : List Pattern) : FileTree :=
  (t.makeWay (t.origin path) (names path).dropLast).insert
    ((names path).foldl descend (t.origin path)) (.file content)

/-! ### Following a path -/

/-- The longest name of a node, in bytes. -/
def nameLimit : Nat := 255

/-- The first length of a path, in bytes, that is too long. -/
def pathLimit : Nat := 4096

/-- One step along a path: only a directory leads on, and the name has to be there. -/
def step (t : FileTree) (loc : Location) (name : String) : Except IoError Location :=
  if ¬(t.root.find? loc).any Node.isDirectory then .error (.os .notDirectory)
  else if nameLimit < name.utf8ByteSize then .error (.os .nameTooLong)
  else if (t.root.find? (descend loc name)).isSome then .ok (descend loc name)
  else .error (.os .noEntry)

/-- The location of a path.  A slash at the end asks for a directory. -/
def resolve (t : FileTree) (path : String) : Except IoError Location :=
  let way := names path ++ if path.toList.getLast? = some '/' then ["."] else []
  if path.toList.contains '\x00' then
    .error (.custom .invalidInput "file name contained an unexpected NUL byte")
  else if path = "" then .error (.os .noEntry)
  else if pathLimit ≤ path.utf8ByteSize then .error (.os .nameTooLong)
  else way.foldlM t.step (t.origin path)

/-! ### Open files -/

/-- An open file: what is still to be read. -/
inductive Handle
  /-- A directory opens, but cannot be read. -/
  | directory
  | file (rest : List Pattern)
  | zeros
  deriving DecidableEq, Repr

/-- One read of an open file: a whole chunk, as long as there is enough. -/
def Handle.read : Handle → Reading × Handle
  | .directory => (.failed (.os .isDirectory), .directory)
  | .file rest =>
    let (bytes, rest) := Pattern.splitAt chunkSize rest
    (.exactly bytes, .file rest)
  | .zeros => (.exactly (List.replicate chunkSize 0), .zeros)

/-- Reading a file is never interrupted. -/
instance : Source Handle where
  read := Handle.read
  patience _ := 0
  patience_lt s h := by
    cases s with
    | directory => simp [Handle.read, IoError.isInterrupted, IoError.kind, Errno.kind] at h
    | file rest => simp [Handle.read, Reading.exactly] at h
    | zeros => simp [Handle.read, Reading.exactly] at h

def Handle.ofNode : Node → Handle
  | .directory _ => .directory
  | .file content => .file content
  | .empty => .file []
  | .zeros => .zeros

def openFile (t : FileTree) (path : String) : Except IoError Handle :=
  match t.resolve path with
  | .error cause => .error cause
  | .ok loc =>
    match t.root.find? loc with
    | some n => .ok (.ofNode n)
    | none => .error (.os .noEntry)

end FileTree

end FlatMemory
