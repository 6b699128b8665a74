import FlatMemory.Source
import FlatMemory.Source.Pattern

/-!
# Scripted sources

A script is a source whose readings are laid down in advance: stretches of data that
are handed out piece by piece, pauses, interruptions, failures, and claims that need
not be true.  Its interruptions are counted in its turns.
-/

namespace FlatMemory

/-- One part of a script. -/
inductive Turn
  /-- Data, handed out in pieces of at most `limit` bytes and at most a chunk. -/
  | data (bytes : Pattern) (limit : Option Nat)
  /-- Readings that report that there is nothing more, although there may be. -/
  | pause (times : Nat)
  | interrupt (times : Nat)
  | fail (cause : IoError)
  /-- One reading that writes some bytes and reports another number. -/
  | claim (count : Nat) (written : List UInt8)
  deriving DecidableEq, Repr

/-- A source laid down in advance.  After its last turn there is nothing more. -/
structure Script where
  turns : List Turn
  deriving DecidableEq, Repr

namespace Script

/-- The next reading of some turns.  A turn that is used up is passed over. -/
def readTurns : List Turn → Reading × List Turn
  | [] => (.nothing, [])
  | .data bytes limit :: rest =>
    if bytes.length = 0 then readTurns rest
    else
      let piece := bytes.front (min chunkSize (limit.getD chunkSize))
      (.exactly piece, .data (bytes.drop piece.length) limit :: rest)
  | .pause 0 :: rest => readTurns rest
  | .pause (n + 1) :: rest => (.nothing, .pause n :: rest)
  | .interrupt 0 :: rest => readTurns rest
  | .interrupt (n + 1) :: rest => (.failed (.plain .interrupted), .interrupt n :: rest)
  | .fail cause :: rest => (.failed cause, rest)
  | .claim count written :: rest => (.got count (written.take chunkSize), rest)

def read (s : Script) : Reading × Script :=
  let (reading, rest) := readTurns s.turns
  (reading, ⟨rest⟩)

/-- The interruptions that a turn can still bring. -/
def turnPatience : Turn → Nat
  | .interrupt times => times
  | .fail _ => 1
  | _ => 0

/-- The interruptions that are left in some turns. -/
def patience : List Turn → Nat
  | [] => 0
  | turn :: rest => turnPatience turn + patience rest

theorem patience_readTurns_lt (turns : List Turn)
    (h : (readTurns turns).1.isInterrupted = true) :
    patience (readTurns turns).2 < patience turns := by
  fun_induction readTurns turns with
  | case1 => simp [Reading.nothing] at h
  | case2 bytes limit rest hlen ih => simpa [patience, turnPatience] using ih h
  | case3 bytes limit rest hlen piece => simp [Reading.exactly] at h
  | case4 rest ih => simpa [patience, turnPatience] using ih h
  | case5 n rest => simp [Reading.nothing] at h
  | case6 rest ih => simpa [patience, turnPatience] using ih h
  | case7 n rest => simp [patience, turnPatience]
  | case8 cause rest => simp [patience, turnPatience]
  | case9 count written rest => simp at h

instance : Source Script where
  read := read
  patience s := patience s.turns
  patience_lt s h := patience_readTurns_lt s.turns h

end Script

end FlatMemory
