import FlatMemory.Text.Regex.Scan
import FlatMemory.Text.Regex.Tree

/-!
# Regular expressions

Whether a text is a regular expression that can be matched.  What it matches is of no
concern here.
-/

namespace FlatMemory.Regex

/-- Why a text cannot be matched. -/
inductive Flaw
  /-- It is no expression, or one that asks for what is not supported. -/
  | malformed
  | wordBoundary
  deriving DecidableEq, Repr

/-- How deeply an expression can be nested. -/
def depthLimit : Nat := 250

/-- Whether tokens make up an expression: each of them is supported, the names of groups
differ, and the expression is not nested too deeply. -/
def isWellFormed (tokens : List (Flags × Token)) : Bool :=
  tokens.all (fun t => t.2.isSupported t.1)
    && Flags.isDistinct (tokens.filterMap fun t => t.2.name?)
    && (Tree.ofTokens? (tokens.map (·.2))).any fun tree => tree.depth ≤ depthLimit

/-- Whether tokens ask for edges of words where characters are matched. -/
def asksForWords (tokens : List (Flags × Token)) : Bool :=
  tokens.any fun t => t.1.unicode && t.2 == .atom .wordBoundary

def flaw? (text : List Char) : Option Flaw :=
  match scan .start text with
  | none => some .malformed
  | some tokens =>
    if ¬isWellFormed tokens then some .malformed
    else if asksForWords tokens then some .wordBoundary
    else none

end FlatMemory.Regex
