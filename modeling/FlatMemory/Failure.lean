import FlatMemory.IoError
import FlatMemory.Text.Hex
import FlatMemory.Text.Record

/-!
# Failures of a memory

The five ways in which an operation on a memory fails, each with the value that
made it fail.  A failure is shown as a sentence, and inspected by its name and its field.
-/

namespace FlatMemory

/-- Why an operation on a memory failed. -/
inductive Failure
  | allocation (size : Nat)
  /-- The source of the code could not be opened or read. -/
  | unavailable (cause : IoError)
  | tooLarge (capacity : Nat)
  /-- No whole instruction stands at this position. -/
  | overflow (pos : Int64)
  | outOfRange (addr : UInt8)
  deriving DecidableEq, Repr

namespace Failure

def message : Failure → String
  | allocation size => "can't allocate " ++ toString size ++ " bytes for ram"
  | unavailable cause => "code source unavailable: " ++ cause.text
  | tooLarge capacity =>
    "code does not fit in the " ++ toString capacity ++ " bytes of the code region"
  | overflow pos => "memory overflow fetching instruction at " ++ toString pos.toInt
  | outOfRange addr => "address 0x" ++ String.ofList (Hex.byte addr) ++ " out of range"

def cause? : Failure → Option IoError
  | unavailable cause => some cause
  | _ => none

/-- The sentence shown for the failure, and that of the error it passes on. -/
def chain (f : Failure) : String :=
  match f.cause? with
  | some cause => f.message ++ ": " ++ cause.text
  | none => f.message

/-- The failure by name, with its field. -/
def inspect? : Failure → Option String
  | allocation size => some (Text.record "Allocation" [("size", toString size)])
  | unavailable _ => none
  | tooLarge capacity => some (Text.record "CodeTooLarge" [("capacity", toString capacity)])
  | overflow pos => some (Text.record "MemoryOverflow" [("pos", toString pos.toInt)])
  | outOfRange addr => some (Text.record "AddressOutOfRange" [("addr", toString addr)])

end Failure

end FlatMemory
