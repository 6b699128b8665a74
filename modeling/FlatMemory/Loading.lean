import FlatMemory.Memory
import FlatMemory.Staging

/-!
# Loading a program

A load reads a source until it has nothing more, fails, or has delivered more than
the code region holds, and only then touches the memory.

## Main definitions

* `Fault` — a failure, or a source that claimed more bytes than a chunk holds.
* `Tally` — the reads that a load made, and the bytes that they reported.
* `collect` — reads a source to its ending.
* `Memory.conclude` — what an ending means for a memory and for the log.
* `Memory.loadCode`, `Memory.loadFile` — from a source, and from a file by its path.

## Main results

* `collect_eq` — the collecting, one reading at a time.
-/

namespace FlatMemory

universe u v

variable {σ : Type u} {L : Layout}

/-- Why a load came to nothing, or not to the end of its source. -/
inductive Fault
  | failure (why : Failure)
  /-- A source claimed more bytes than the chunk holds. -/
  | overrun (index : Nat)
  deriving DecidableEq, Repr

def Fault.message : Fault → String
  | .failure why => why.message
  | .overrun index =>
    "range end index " ++ toString index ++ " out of range for slice of length "
      ++ toString chunkSize

/-! ### Reading to the end -/

/-- How often a source was read, and how many bytes that is said to have delivered. -/
structure Tally where
  /-- The number of reads, failed ones included. -/
  reads : Nat
  /-- The sum of the counts that they reported. -/
  consumed : Nat
  deriving DecidableEq, Repr

namespace Tally

def zero : Tally := ⟨0, 0⟩

def add (t : Tally) (r : Reading) : Tally :=
  ⟨t.reads + 1, t.consumed + r.count⟩

end Tally

/-- The end of the collecting: how it ended, what is left of the source, and how
much was read. -/
structure Finish (σ : Type u) where
  ending : Ending
  rest : σ
  tally : Tally

/-- Absorbing a reading takes up room, or else patience. -/
theorem lex_of_absorb [Source σ] {capacity : Nat} {s s' : Staging} {source : σ}
    (h : s.absorb capacity (Source.read source).1 = .ok s') :
    Prod.Lex (· < ·) (· < ·)
      (capacity - s'.staged.size, Source.patience (Source.read source).2)
      (capacity - s.staged.size, Source.patience source) := by
  have hsize := Staging.size_staged_absorb h
  rcases Staging.absorb_ok h with ⟨hi, rfl⟩ | ⟨count, written, hr, hpos, -, hroom, -⟩
  · -- an interruption: as much room as before, but less patience
    exact Prod.Lex.right _ (Source.patience_lt source hi)
  · -- a report: less room
    rw [hr, Reading.count_got] at hsize
    exact Prod.Lex.left _ _ (by omega)

/-- Reads a source until the staging ends.  Every report that is absorbed takes up
room, and every interruption takes up patience, so the end is reached. -/
def collect [Source σ] (capacity : Nat) (s : Staging) (tally : Tally) (source : σ) :
    Finish σ :=
  match _hread : Source.read source with
  | (reading, rest) =>
    match _hstep : s.absorb capacity reading with
    | .error ending => ⟨ending, rest, tally.add reading⟩
    | .ok s' => collect capacity s' (tally.add reading) rest
termination_by (capacity - s.staged.size, Source.patience source)
decreasing_by
  obtain rfl : (Source.read source).1 = reading := by rw [_hread]
  obtain rfl : (Source.read source).2 = rest := by rw [_hread]
  exact lex_of_absorb _hstep

theorem collect_eq [Source σ] (capacity : Nat) (s : Staging) (tally : Tally) (source : σ) :
    collect capacity s tally source =
      match s.absorb capacity (Source.read source).1 with
      | .error ending =>
        ⟨ending, (Source.read source).2, tally.add (Source.read source).1⟩
      | .ok s' =>
        collect capacity s' (tally.add (Source.read source).1) (Source.read source).2 := by
  rw [collect]
  split
  rename_i reading rest hread
  rw [hread]
  split <;> rename_i hstep <;> simp [hstep]

/-! ### What an ending means -/

/-- The end of a load: its answer, the memory it leaves, and what the log says. -/
structure Conclusion (L : Layout) where
  outcome : Except Fault Nat
  memory : Memory L
  log : List Event

/-- Code that was collected is committed, whether or not it is the whole program;
in the other endings the memory stays as it was and the log is silent. -/
def Memory.conclude (m : Memory L) : Ending → Conclusion L
  | .complete code =>
    ⟨.ok code.size, m.commit code, [.loaded code.size L.stack]⟩
  | .truncated code =>
    ⟨.error (.failure (.tooLarge L.capacity)), m.commit code, [.truncated L.capacity]⟩
  | .broken cause => ⟨.error (.failure (.unavailable cause)), m, []⟩
  | .overrun index => ⟨.error (.overrun index), m, []⟩

/-- A load from a source: its end, and what is left of the source. -/
structure LoadReport (L : Layout) (σ : Type u) extends Conclusion L where
  rest : σ
  tally : Tally

def Memory.loadCode [Source σ] (m : Memory L) (source : σ) : LoadReport L σ :=
  let finish := collect L.capacity .start .zero source
  { m.conclude finish.ending with rest := finish.rest, tally := finish.tally }

/-- Opens a file and loads a program from it.  A file that cannot be opened is not
read, and not mentioned in the log. -/
def Memory.loadFile {π : Type v} [Source σ] [ToString π] (openFile : π → Except IoError σ)
    (m : Memory L) (path : π) : Conclusion L :=
  match openFile path with
  | .error cause => ⟨.error (.failure (.unavailable cause)), m, []⟩
  | .ok source =>
    let report := m.loadCode source
    { report.toConclusion with log := .reading (toString path) :: report.log }

end FlatMemory
