import FlatMemory.Loading

/-!
# Operations

Everything that can be done with a memory between its beginning and its end, as data:
what is asked, what the memory answers, and what it leaves behind.

## Main definitions

* `Operation` — the questions and commands.
* `Value` — the answers of those that succeed.
* `Operation.perform` — carries out one operation.
* `Command` — an operation, and the files that it can open.
* `Memory.history`, `Memory.after` — several commands, one after the other.
-/

namespace FlatMemory

universe u v

variable {σ : Type u} {φ : Type v} {L : Layout}

/-- What is asked of a memory.  Code comes from sources of type `σ`. -/
inductive Operation (σ : Type u)
  | regions
  | size
  | inspect
  | load (addr : UInt8)
  | store (addr value : UInt8)
  | fetch (pos : Int64)
  | loadCode (source : σ)
  | loadFile (path : String)
  deriving DecidableEq, Repr

/-- The answer to an operation that succeeds. -/
inductive Value
  | done
  | count (n : Nat)
  | byte (b : UInt8)
  | instruction (i : Instruction)
  | regions (stack code : Region)
  | text (t : String)
  deriving DecidableEq, Repr

/-- What an operation leaves behind. -/
structure Response (L : Layout) where
  memory : Memory L
  result : Except Fault Value
  log : List Event
  /-- How much was read, for a load from a source. -/
  tally : Option Tally

namespace Response

/-- An answer that touches nothing. -/
def reply (m : Memory L) (result : Except Failure Value) : Response L :=
  ⟨m, result.mapError .failure, [], none⟩

/-- The end of a load, answered with the number of bytes loaded. -/
def ofConclusion (c : Conclusion L) (tally : Option Tally) : Response L :=
  ⟨c.memory, c.outcome.map .count, c.log, tally⟩

end Response

namespace Operation

def perform [Source σ] [Source φ] (openFile : String → Except IoError φ) (m : Memory L) :
    Operation σ → Response L
  | regions => .reply m (.ok (.regions L.stackRegion L.codeRegion))
  | size => .reply m (.ok (.count L.ram))
  | inspect => .reply m (.ok (.text m.inspect))
  | load addr => .reply m ((m.load addr).map .byte)
  | store addr value =>
    match m.store addr value with
    | .ok stored => .reply stored (.ok .done)
    | .error why => .reply m (.error why)
  | fetch pos => .reply m ((m.fetch pos).map .instruction)
  | loadCode source =>
    let report := m.loadCode source
    .ofConclusion report.toConclusion (some report.tally)
  | loadFile path => .ofConclusion (m.loadFile openFile path) none

end Operation

/-! ### Runs -/

/-- An operation, and the files as they are when its turn comes. -/
structure Command (σ : Type u) (φ : Type v) where
  operation : Operation σ
  openFile : String → Except IoError φ

def Command.perform [Source σ] [Source φ] (c : Command σ φ) (m : Memory L) : Response L :=
  c.operation.perform c.openFile m

/-- Carries out commands one after the other, and puts down each with its response. -/
def Memory.history [Source σ] [Source φ] (m : Memory L) :
    List (Command σ φ) → List (Command σ φ × Response L)
  | [] => []
  | c :: cs => (c, c.perform m) :: (c.perform m).memory.history cs

def Memory.after [Source σ] [Source φ] (m : Memory L) (cs : List (Command σ φ)) : Memory L :=
  cs.foldl (fun m c => (c.perform m).memory) m

end FlatMemory
