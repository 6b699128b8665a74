/-!
# The log of a memory

A memory reports what happens to it as a whole: that its bytes were reserved or
given back, that a file is being read, and how a load of code went.  Single bytes
and instructions pass without a report.
-/

namespace FlatMemory

/-- How much an event matters, the gravest first. -/
inductive Level
  | error
  | warn
  | info
  | debug
  | trace
  deriving DecidableEq, Repr, Inhabited

/-- The number of a level: one for the gravest, five for the least. -/
def Level.rank : Level → Nat
  | .error => 1
  | .warn => 2
  | .info => 3
  | .debug => 4
  | .trace => 5

def Level.label : Level → String
  | .error => "ERROR"
  | .warn => "WARN"
  | .info => "INFO"
  | .debug => "DEBUG"
  | .trace => "TRACE"

/-- What a memory reports. -/
inductive Event
  | allocated (size stack : Nat)
  /-- A file was opened, and its code is about to be read. -/
  | reading (path : String)
  | loaded (len offset : Nat)
  /-- Only as much of a program was loaded as fits. -/
  | truncated (capacity : Nat)
  | released (size : Nat)
  deriving DecidableEq, Repr

namespace Event

/-- A truncated program is a warning; everything else is detail. -/
def level : Event → Level
  | truncated _ => .warn
  | _ => .debug

def message : Event → String
  | allocated _ _ => "ram allocated"
  | reading _ => "reading code file"
  | loaded _ _ => "code loaded"
  | truncated _ => "code truncated at the end of ram"
  | released _ => "ram released"

def fields : Event → List (String × String)
  | allocated size stack => [("size", toString size), ("stack", toString stack)]
  | reading path => [("path", path)]
  | loaded len offset => [("len", toString len), ("offset", toString offset)]
  | truncated capacity => [("capacity", toString capacity)]
  | released size => [("size", toString size)]

/-- The names under which an event can be asked for what it reports; the message is one
of them. -/
def fieldNames (e : Event) : List String :=
  "message" :: e.fields.map (·.1)

/-- The message, then each field as `name=value`. -/
def text (e : Event) : String :=
  " ".intercalate (e.message :: e.fields.map fun f => f.1 ++ "=" ++ f.2)

def line (e : Event) : String :=
  e.level.label ++ " " ++ e.text

end Event

end FlatMemory
