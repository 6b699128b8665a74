import FlatMemory.Text.Regex.Token

/-!
# How a regular expression is nested

The tokens of an expression form a tree.  A group, a class and a repetition are nodes, and
so are two or more parts one after the other, and two or more alternatives.
-/

namespace FlatMemory.Regex

/-- How an expression is nested. -/
inductive Tree
  | leaf
  /-- A change of the flags, which cannot be repeated. -/
  | switch
  | node (parts : List Tree)
  deriving Repr

namespace Tree

mutual

/-- How many nodes there are above a leaf, at most. -/
def depth : Tree → Nat
  | leaf | switch => 0
  | node parts => maxDepth parts + 1

def maxDepth : List Tree → Nat
  | [] => 0
  | t :: ts => max t.depth (maxDepth ts)

end

/-- Trees in a row; a row of one is no node of its own. -/
def sequence : List Tree → Tree
  | [] => leaf
  | [t] => t
  | ts => node ts

/-- Parts of a class that are joined by operators, each operator joining all that is
before it with the part after it. -/
def joined (first : Tree) (rest : List Tree) : Tree :=
  rest.foldl (fun t u => node [t, u]) first

end Tree

/-! ### From tokens to trees -/

/-- A group or a class that is open, or the whole expression. -/
structure Frame where
  /-- The alternatives of a group, or the parts of a class, that are complete, in
  order. -/
  complete : List Tree
  /-- The trees of the last one, the latest first. -/
  current : List Tree
  deriving Repr

namespace Frame

def empty : Frame := ⟨[], []⟩

def push (f : Frame) (t : Tree) : Frame := { f with current := t :: f.current }

def split (f : Frame) : Frame := ⟨f.complete ++ [.sequence f.current.reverse], []⟩

def alternatives (f : Frame) : Tree := .sequence f.split.complete

def operands (f : Frame) : Tree :=
  match f.split.complete with
  | [] => .leaf
  | first :: rest => .joined first rest

/-- Repeats the last tree, if there is one that can be repeated. -/
def repeat? (f : Frame) : Option Frame :=
  match f.current with
  | [] | .switch :: _ => none
  | t :: ts => some { f with current := .node [t] :: ts }

/-- Takes in a token, the innermost frame being the first. -/
def read? (frames : List Frame) (t : Token) : Option (List Frame) :=
  match t, frames with
  | .atom _, f :: rest | .item _, f :: rest => some (f.push .leaf :: rest)
  | .switch, f :: rest => some (f.push .switch :: rest)
  | .repetition, f :: rest => f.repeat?.map (· :: rest)
  | .bar, f :: rest | .operator, f :: rest => some (f.split :: rest)
  | .groupStart _, _ | .classStart _, _ => some (empty :: frames)
  | .groupEnd, f :: g :: rest => some (g.push (.node [f.alternatives]) :: rest)
  | .classEnd, f :: g :: rest => some (g.push (.node [f.operands]) :: rest)
  | _, _ => none

end Frame

def Tree.ofTokens? (tokens : List Token) : Option Tree :=
  match tokens.foldlM Frame.read? [.empty] with
  | some [f] => some f.alternatives
  | _ => none

end FlatMemory.Regex
