import FlatMemory.Source.Pattern

/-!
# Nodes of a file tree

A node is a directory with named nodes in it, a file, or a device.
-/

namespace FlatMemory

/-- The names on the way from the root, the first one first; the root is `[]`. -/
abbrev Location := List String

/-- What a name in a directory stands for. -/
inductive Node
  | directory (entries : List (String × Node))
  | file (content : List Pattern)
  /-- A device that never has anything. -/
  | empty
  /-- A device that never ends and holds zeros only. -/
  | zeros
  deriving Repr

namespace Node

def entries : Node → List (String × Node)
  | directory entries => entries
  | _ => []

def isDirectory : Node → Bool
  | directory _ => true
  | _ => false

def find? (n : Node) : Location → Option Node
  | [] => some n
  | name :: loc => (n.entries.lookup name).bind (·.find? loc)

/-- Puts a node at a location, in the place of what is there, and directories on the way
where nothing is yet.  Nothing can be put into a file or a device. -/
def insert : Node → Location → Node → Node
  | _, [], new => new
  | directory entries, name :: loc, new =>
    let old := (entries.lookup name).getD (directory [])
    directory ((name, old.insert loc new) :: entries.filter fun e => e.1 ≠ name)
  | n, _ :: _, _ => n

end Node

end FlatMemory
