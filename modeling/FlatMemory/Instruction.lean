import FlatMemory.Text.Hex
import FlatMemory.Text.Record

/-!
# Instructions

An instruction is three bytes as they stand in memory: an operation code and two
arguments.  No meaning is attached to them here.

## Main definitions

* `Instruction`, `Instruction.width` — the three bytes, and how many they are.
* `Instruction.ofBytes`, `Instruction.toBytes` — between fields and bytes.
* `Instruction.text` — the three bytes in hexadecimal, as a listing shows them.
* `Instruction.inspect` — the fields by name, in decimal.

## Main results

* `Instruction.toBytes_ofBytes`, `Instruction.ofBytes_toBytes` — fields and bytes
  determine each other.
-/

namespace FlatMemory

/-- A raw instruction. -/
structure Instruction where
  opcode : UInt8
  arg1 : UInt8
  arg2 : UInt8
  deriving DecidableEq, Repr

namespace Instruction

/-- The bytes an instruction takes in memory. -/
def width : Nat := 3

/-- Untouched memory reads as the instruction of three zeros. -/
instance : Inhabited Instruction := ⟨⟨0, 0, 0⟩⟩

def ofBytes (bytes : Vector UInt8 width) : Instruction :=
  ⟨bytes[0], bytes[1], bytes[2]⟩

/-- The bytes in the order in which they stand in memory. -/
def toBytes (i : Instruction) : Vector UInt8 width :=
  #v[i.opcode, i.arg1, i.arg2]

/-- Three two-digit bytes, separated by blanks. -/
def text (i : Instruction) : String :=
  String.ofList (Hex.byte i.opcode ++ ' ' :: Hex.byte i.arg1 ++ ' ' :: Hex.byte i.arg2)

def inspect (i : Instruction) : String :=
  Text.record "Instruction"
    [("opcode", toString i.opcode), ("arg1", toString i.arg1), ("arg2", toString i.arg2)]

@[simp] theorem ofBytes_toBytes (i : Instruction) : ofBytes i.toBytes = i := rfl

@[simp] theorem toBytes_ofBytes (bytes : Vector UInt8 width) :
    (ofBytes bytes).toBytes = bytes := by
  ext i hi
  match i, hi with
  | 0, _ => rfl
  | 1, _ => rfl
  | 2, _ => rfl

end Instruction

end FlatMemory
