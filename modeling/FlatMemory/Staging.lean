import FlatMemory.Source

/-!
# Staging a program

The bytes of a program are collected before any of them reaches the memory, so
that a load that fails leaves the memory as it was.  Reading by reading the bytes
pass through one chunk, which is wiped at the start of a load and not in between:
a source that reports more bytes than it wrote uncovers bytes of its own earlier
readings, and zeros.

## Main definitions

* `Chunk`, `Chunk.overwrite`, `Chunk.front` — the buffer that readings write to.
* `Staging` — the bytes collected so far, and the chunk.
* `Ending` — how the collecting comes to an end.
* `Staging.absorb capacity` — what one reading does to the staged bytes.

## Main results

* `Staging.absorb_ok` — a reading after which the collecting goes on is an
  interruption, or it added between one and sixty-four bytes for which there was room.
-/

namespace FlatMemory

/-! ### The chunk -/

/-- The buffer that a reading writes to. -/
abbrev Chunk := Vector UInt8 chunkSize

namespace Chunk

def zeroed : Chunk := .replicate chunkSize 0

/-- Bytes put at the front; those beyond the end of the chunk are dropped, and the
rest of the chunk stays. -/
def overwrite (chunk : Chunk) (written : List UInt8) : Chunk :=
  .ofFn fun i => if h : i.val < written.length then written[i.val] else chunk[i]

def front (chunk : Chunk) (n : Nat) : Array UInt8 :=
  chunk.toArray.take n

@[simp] theorem getElem_zeroed (i : Nat) (h : i < chunkSize) : zeroed[i] = 0 := by
  simp [zeroed]

@[simp] theorem getElem_overwrite (chunk : Chunk) (written : List UInt8) (i : Nat)
    (h : i < chunkSize) :
    (chunk.overwrite written)[i] =
      if hw : i < written.length then written[i] else chunk[i] := by
  simp [overwrite]

@[simp] theorem size_front (chunk : Chunk) (n : Nat) :
    (chunk.front n).size = min n chunkSize := by
  simp [front]

end Chunk

/-! ### Collecting -/

/-- How the collecting of a program's bytes ends. -/
inductive Ending
  | complete (code : Array UInt8)
  /-- The source has more than there is room for; the code fills the room. -/
  | truncated (code : Array UInt8)
  | broken (cause : IoError)
  /-- The first `index` bytes of the chunk were to be staged, and there are fewer. -/
  | overrun (index : Nat)
  deriving DecidableEq, Repr

/-- The bytes collected so far, and the chunk as the last reading left it. -/
structure Staging where
  staged : Array UInt8
  chunk : Chunk
  deriving DecidableEq, Repr

namespace Staging

def start : Staging := ⟨#[], .zeroed⟩

/-- One reading.  `.error` holds the ending, `.ok` the staging to go on with.

An interruption is passed over.  Otherwise the reported number of bytes is taken
from the front of the chunk, but no more than there is room for; a report beyond the
room ends the collecting. -/
def absorb (capacity : Nat) (s : Staging) : Reading → Except Ending Staging
  | .failed cause => if cause.isInterrupted then .ok s else .error (.broken cause)
  | .got count written =>
    let room := capacity - s.staged.size
    let taken := min count room
    if count = 0 then .error (.complete s.staged)
    else if chunkSize < taken then .error (.overrun taken)
    else
      let chunk := s.chunk.overwrite written
      let staged := s.staged ++ chunk.front taken
      if room < count then .error (.truncated staged) else .ok ⟨staged, chunk⟩

@[simp] theorem staged_start : start.staged = #[] := rfl

theorem absorb_failed (capacity : Nat) (s : Staging) (cause : IoError) :
    s.absorb capacity (.failed cause) =
      if cause.isInterrupted then .ok s else .error (.broken cause) := rfl

/-- A reading after which the collecting goes on was an interruption, or it
reported between one and sixty-four bytes for which there was room. -/
theorem absorb_ok {capacity : Nat} {s s' : Staging} {r : Reading}
    (h : s.absorb capacity r = .ok s') :
    (r.isInterrupted = true ∧ s' = s) ∨
      ∃ count written, r = .got count written ∧
        1 ≤ count ∧ count ≤ chunkSize ∧ count ≤ capacity - s.staged.size ∧
        s' = ⟨s.staged ++ (s.chunk.overwrite written).front count, s.chunk.overwrite written⟩ := by
  cases r with
  | failed cause =>
    rw [absorb_failed] at h
    split at h
    · rename_i hi
      exact .inl ⟨hi, (Except.ok.inj h).symm⟩
    · cases h
  | got count written =>
    refine .inr ⟨count, written, rfl, ?_⟩
    simp only [absorb] at h
    split at h
    · cases h
    · split at h
      · cases h
      · split at h
        · cases h
        · -- all three tests passed, so the whole report is taken
          have hall : min count (capacity - s.staged.size) = count := by omega
          rw [hall] at h
          refine ⟨by omega, by omega, by omega, (Except.ok.inj h).symm⟩

theorem size_staged_absorb {capacity : Nat} {s s' : Staging} {r : Reading}
    (h : s.absorb capacity r = .ok s') :
    s'.staged.size = s.staged.size + r.count := by
  rcases absorb_ok h with ⟨hi, rfl⟩ | ⟨count, written, rfl, -, hc, -, rfl⟩
  · cases r with
    | failed cause => rfl
    | got count written => simp at hi
  · simp [Nat.min_eq_left hc]

end Staging

end FlatMemory
