/-!
# Byte patterns

A long stretch of bytes is seldom spelled out: mostly it repeats one byte, or each
byte differs from the one before by the same step.  A part of a pattern can be taken without the
other bytes being written down.
-/

namespace FlatMemory

/-- A stretch of bytes. -/
inductive Pattern
  | literal (bytes : List UInt8)
  /-- `count` bytes, each larger by `step` than the one before. -/
  | progression (start step : UInt8) (count : Nat)
  deriving DecidableEq, Repr

namespace Pattern

def length : Pattern → Nat
  | literal bytes => bytes.length
  | progression _ _ count => count

/-- The first `count` bytes of a progression. -/
def march (start step : UInt8) : Nat → List UInt8
  | 0 => []
  | count + 1 => start :: march (start + step) step count

def toList : Pattern → List UInt8
  | literal bytes => bytes
  | progression start step count => march start step count

def front (n : Nat) : Pattern → List UInt8
  | literal bytes => bytes.take n
  | progression start step count => march start step (min n count)

def drop (n : Nat) : Pattern → Pattern
  | literal bytes => literal (bytes.drop n)
  | progression start step count => progression (start + step * UInt8.ofNat n) step (count - n)

/-- The first `n` bytes of the patterns in a row, and the patterns of the rest. -/
def splitAt : Nat → List Pattern → List UInt8 × List Pattern
  | _, [] => ([], [])
  | n, p :: ps =>
    if n < p.length then (p.front n, p.drop n :: ps)
    else
      let (bytes, rest) := splitAt (n - p.length) ps
      (p.toList ++ bytes, rest)

end Pattern

end FlatMemory
