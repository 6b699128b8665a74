import FlatMemory.Console
import FlatMemory.Listing

/-!
# The program as a process

The program puts the code of a file into a memory of the standard layout and lists it.  Step by
step it brings the events of the memory before a log, prints the listing, and stops at the first
error.  How the words of the command line are read, which filters a log knows, and in which form
it shows an event are none of the program's business: these are parameters here.

## Main definitions

* `Stop` — why a process stops before its end.
* `Process` — steps that write to the console and may stop.
* `Logging` — a log: its filters, and what it does with an event.
* `Process.list` — loads a file and lists it.
* `Process.main` — from the words of a command line to the exit.
-/

namespace FlatMemory

universe u

variable {σ : Type u} {α π ω φ : Type} {L : Layout}

/-- Why a process stops before its end. -/
inductive Stop
  | error (message : String)
  | panic (message : String)
  deriving DecidableEq, Repr

namespace Stop

/-- A fault stops a process with what was attempted and why it failed; a source that claims more
than a chunk is not provided for. -/
def ofFault (attempt : String) : Fault → Stop
  | .failure why => .error (attempt ++ ": " ++ why.chain)
  | .overrun index => .panic (Fault.overrun index).message

/-- An error is named at the end and gives the status 1; a panic gives the status 101. -/
def exit (c : Console) : Stop → Exit
  | error message => ⟨1, c.note [.error ("error: " ++ message)]⟩
  | panic message => ⟨101, c.note [.panic message]⟩

end Stop

/-- Steps that write to the console and may stop. -/
abbrev Process := EStateM Stop Console

/-- A log: the filters that it knows, of type `φ`, and what it does with an event.  Filters of
the environment are texts of type `ω`. -/
structure Logging (ω φ : Type) where
  /-- The filter that a text of the environment stands for, if it stands for one. -/
  parse? : ω → Option φ
  /-- The filter of a log level. -/
  ofLevel : String → φ
  /-- What is said about a log level that is not understood as a whole. -/
  complaints : String → List String
  /-- What becomes of an event under a filter. -/
  record : φ → Event → Console → Console

/-- Sets up a log: the filter of the environment is in force if there is one and it makes sense,
and otherwise that of the log level. -/
def Logging.start (logging : Logging ω φ) (environment : Option ω) (level : String) :
    Process φ :=
  match environment.bind logging.parse? with
  | some filter => return filter
  | none => do
    modify fun c => c.note ((logging.complaints level).map .complaint)
    return logging.ofLevel level

namespace Process

/-- Brings events before a log, one after the other. -/
def report (record : Event → Console → Console) (events : List Event) : Process Unit :=
  modify fun c => events.foldl (fun c e => record e c) c

def print (line : String) : Process Unit :=
  modify fun c => c.print line

section Steps

variable (record : Event → Console → Console)

def allocate : Process (Memory .standard) := do
  let (outcome, log) := Memory.allocate .standard Memory.addressSpace
  report record log
  match outcome with
  | .ok m => return m
  | .error why => throw (.ofFault "can't start vm" (.failure why))

def load [Source σ] [ToString π] (openFile : π → Except IoError σ) (m : Memory L) (path : π) :
    Process (Memory L) := do
  let load := m.loadFile openFile path
  report record load.log
  match load.outcome with
  | .ok _ => return load.memory
  | .error fault => throw (.ofFault ("can't load code from " ++ toString path) fault)

/-- Prints the instruction at each of the addresses, up to the first that cannot be fetched. -/
def printAll (m : Memory L) : List Nat → Process Unit
  | [] => return
  | pos :: rest =>
    match m.fetch (Int64.ofNat pos) with
    | .error why => throw (.error why.chain)
    | .ok i => do
      print (Listing.line (pos, i))
      printAll m rest

/-- Loads a file into a new memory, lists it, and gives the memory back. -/
def list [Source σ] [ToString π] (openFile : π → Except IoError σ) (path : π) :
    Process Unit := do
  let m ← allocate record
  let m ← load record openFile m path
  printAll m m.positions
  report record m.release

end Steps

/-- Runs a process on a blank console. -/
def exit (p : Process Unit) : Exit :=
  match p.run .blank with
  | .ok () c => ⟨0, c⟩
  | .error stop c => stop.exit c

/-- What the words of a command line say. -/
structure Args (π : Type) where
  file : π
  logLevel : String
  deriving DecidableEq, Repr

/-- From the words of a command line to the exit.  Reading the words leads to an exit of its own
if they do not name a file. -/
def main [Source σ] [ToString π] (parse : α → Except Exit (Args π)) (logging : Logging ω φ)
    (openFile : π → Except IoError σ) (environment : Option ω) (words : α) : Exit :=
  match parse words with
  | .error exit => exit
  | .ok args => exit do
    let filter ← logging.start environment args.logLevel
    list (logging.record filter) openFile args.file

end Process

end FlatMemory
