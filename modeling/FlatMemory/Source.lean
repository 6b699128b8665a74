import FlatMemory.IoError

/-!
# Sources of code

Code arrives in readings.  One reading asks for as many bytes as a chunk holds; it
puts some bytes at the front of the chunk and says how many it put there, or it
fails.  Nothing forces the number to be true.

A failure that is an interruption is no answer: the same reading is asked for
again.  A source is required to run out of interruptions, so that asking again
comes to an end.

## Main definitions

* `Reading` — what one read did.
* `Reading.Honest` — the count is true, and no more than was asked for.
* `Source` — anything that can be read from, with a bound on its interruptions.
* `Source.readings n s` — the first `n` readings of a source.

A list of readings is a source: after the last of them it has nothing more.
-/

namespace FlatMemory

universe u

/-- The number of bytes that one read asks for. -/
def chunkSize : Nat := 64

/-- What one read did. -/
inductive Reading
  /-- The bytes `written` were put at the front of the chunk, and `count` was
  reported.  A count of zero means that there is nothing more. -/
  | got (count : Nat) (written : List UInt8)
  | failed (cause : IoError)
  deriving DecidableEq, Repr

namespace Reading

/-- The reading of a source that has nothing more. -/
def nothing : Reading := got 0 []

instance : Inhabited Reading := ⟨nothing⟩

/-- The reading delivers the bytes, and says so. -/
def exactly (bytes : List UInt8) : Reading := got bytes.length bytes

/-- Whether the reading is to be asked for again. -/
def isInterrupted : Reading → Bool
  | got _ _ => false
  | failed cause => cause.isInterrupted

def count : Reading → Nat
  | got n _ => n
  | failed _ => 0

/-- At least as many bytes were written as are reported, and no more than were
asked for. -/
def Honest : Reading → Prop
  | got n written => n ≤ written.length ∧ written.length ≤ chunkSize
  | failed _ => True

instance : DecidablePred Honest
  | got n written => inferInstanceAs (Decidable (n ≤ written.length ∧ written.length ≤ chunkSize))
  | failed _ => inferInstanceAs (Decidable True)

@[simp] theorem isInterrupted_got (n : Nat) (w : List UInt8) :
    (got n w).isInterrupted = false := rfl

@[simp] theorem isInterrupted_failed (e : IoError) :
    (failed e).isInterrupted = e.isInterrupted := rfl

@[simp] theorem count_got (n : Nat) (w : List UInt8) : (got n w).count = n := rfl

@[simp] theorem count_failed (e : IoError) : (failed e).count = 0 := rfl

end Reading

/-- Something that can be read from again and again.  `patience` bounds the
interruptions that can follow one another. -/
class Source (σ : Type u) where
  read : σ → Reading × σ
  /-- How often a reading may still be interrupted before it is answered. -/
  patience : σ → Nat
  patience_lt : ∀ s, (read s).1.isInterrupted = true → patience (read s).2 < patience s

/-- The first `n` readings of a source. -/
def Source.readings {σ : Type u} [Source σ] : Nat → σ → List Reading
  | 0, _ => []
  | n + 1, s => (read s).1 :: readings n (read s).2

/-! ### Lists of readings -/

/-- The list's readings in order, then nothing more for ever. -/
instance : Source (List Reading) where
  read
    | [] => (.nothing, [])
    | r :: rs => (r, rs)
  patience := List.length
  patience_lt
    | [], h => by simp [Reading.nothing] at h
    | _ :: _, _ => Nat.lt_succ_self _

@[simp] theorem Source.read_nil : Source.read ([] : List Reading) = (.nothing, []) := rfl

@[simp] theorem Source.read_cons (r : Reading) (rs : List Reading) :
    Source.read (r :: rs) = (r, rs) := rfl

end FlatMemory
