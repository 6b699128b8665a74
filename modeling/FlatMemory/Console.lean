import FlatMemory.Log

/-!
# The console

What a program writes while it runs: lines of the standard output, and notes on the standard
error, where the log and the program itself have their say.
-/

namespace FlatMemory

/-- What is written to the standard error. -/
inductive Note
  /-- The log filter passes over a part of its own text. -/
  | complaint (text : String)
  /-- The log shows an event, in some form. -/
  | event (e : Event) (line : String)
  | error (text : String)
  | panic (message : String)
  deriving DecidableEq, Repr

namespace Note

def text : Note → String
  | complaint text | event _ text | error text | panic text => text

def event? : Note → Option Event
  | event e _ => some e
  | _ => none

/-- The program's own notes; the others are about its log. -/
def isVerdict : Note → Bool
  | error _ | panic _ => true
  | _ => false

end Note

/-- All that was written so far, in order. -/
structure Console where
  stdout : List String
  stderr : List Note
  deriving DecidableEq, Repr

namespace Console

def blank : Console := ⟨[], []⟩

def print (c : Console) (line : String) : Console :=
  { c with stdout := c.stdout ++ [line] }

def note (c : Console) (notes : List Note) : Console :=
  { c with stderr := c.stderr ++ notes }

theorem note_nil (c : Console) : c.note [] = c := by
  rw [note, List.append_nil]

end Console

/-- How a run looks from outside when it is over. -/
structure Exit where
  status : Nat
  console : Console
  deriving DecidableEq, Repr

namespace Exit

def stdout (e : Exit) : List String :=
  e.console.stdout

def stderr (e : Exit) : List String :=
  e.console.stderr.map Note.text

/-- What the program itself says on the standard error. -/
def verdicts (e : Exit) : List Note :=
  e.console.stderr.filter Note.isVerdict

end Exit

end FlatMemory
