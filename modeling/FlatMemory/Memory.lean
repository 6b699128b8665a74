import FlatMemory.Failure
import FlatMemory.Instruction
import FlatMemory.Layout
import FlatMemory.Log

/-!
# Memories

A memory of a layout is that many bytes, together with the length of the program
that was loaded last.

## Main definitions

* `Memory` — the bytes, and the code length.
* `Memory.allocate`, `Memory.release` — the beginning and the end of a memory.
* `Memory.load`, `Memory.store` — one byte at an address of one byte.
* `Memory.fetch` — the instruction at a signed 64-bit position.
* `Memory.commit` — puts a program at the start of the code region.
* `Memory.inspect` — bytes and code length by name.

## Main results

* `Memory.load_eq`, `Memory.store_eq`, `Memory.fetch_eq` — when each operation
  succeeds and what it answers, in terms of the bytes.
* `Memory.getElem_commit` — the bytes after a program was committed.
-/

namespace FlatMemory

/-- A memory of the layout `L`. -/
structure Memory (L : Layout) where
  bytes : Vector UInt8 L.ram
  /-- The number of bytes that the last load put into the code region. -/
  codeLen : Nat
  deriving DecidableEq, Repr

namespace Memory

variable {L : Layout}

/-! ### Beginning and end -/

def zeroed (L : Layout) : Memory L where
  bytes := .replicate L.ram 0
  codeLen := 0

/-- The most bytes that can be reserved at once: as many as 47 bits tell apart. -/
def addressSpace : Nat := 0x800000000000

/-- Reserves the bytes of a new memory, if there are at most `limit` of them. -/
def allocate (L : Layout) (limit : Nat) : Except Failure (Memory L) × List Event :=
  if L.ram ≤ limit then (.ok (zeroed L), [.allocated L.ram L.stack])
  else (.error (.allocation L.ram), [])

/-- What the log says when the bytes of a memory are given back. -/
def release (_m : Memory L) : List Event :=
  [.released L.ram]

/-! ### Single bytes -/

def load (m : Memory L) (addr : UInt8) : Except Failure UInt8 :=
  if h : addr.toNat < L.ram then .ok m.bytes[addr.toNat] else .error (.outOfRange addr)

/-- Replaces the byte at an address, in whichever region it lies. -/
def store (m : Memory L) (addr value : UInt8) : Except Failure (Memory L) :=
  if h : addr.toNat < L.ram then .ok { m with bytes := m.bytes.set addr.toNat value }
  else .error (.outOfRange addr)

/-! ### Instructions -/

/-- The instruction made of the three bytes from an address on. -/
def instructionAt (m : Memory L) (a : Nat) (h : a + 2 < L.ram) : Instruction :=
  ⟨m.bytes[a], m.bytes[a + 1], m.bytes[a + 2]⟩

/-- The instruction at a position, where one fits. -/
def fetch (m : Memory L) (pos : Int64) : Except Failure Instruction :=
  if h : L.Fits pos then .ok (m.instructionAt pos.toUInt64.toNat h.lt_ram)
  else .error (.overflow pos)

/-! ### Programs -/

/-- Writes a program from the start of the code region on, and remembers its
length.  The bytes before and after it stay; what would lie beyond the end of the
memory is dropped. -/
def commit (m : Memory L) (code : Array UInt8) : Memory L where
  bytes := .ofFn fun a =>
    if h : L.stack ≤ a.val ∧ a.val - L.stack < code.size then code[a.val - L.stack]
    else m.bytes[a]
  codeLen := code.size

def inspect (m : Memory L) : String :=
  Text.record "Memory"
    [("bytes", Text.sequence (m.bytes.toList.map toString)), ("code_len", toString m.codeLen)]

/-! ### What the operations say of the bytes -/

@[simp] theorem getElem_zeroed (a : Nat) (h : a < L.ram) : (zeroed L).bytes[a] = 0 := by
  simp [zeroed]

@[simp] theorem codeLen_zeroed : (zeroed L).codeLen = 0 := rfl

theorem load_eq (m : Memory L) {addr : UInt8} (h : addr.toNat < L.ram) :
    m.load addr = .ok m.bytes[addr.toNat] := by
  rw [load, dif_pos h]

theorem load_eq_error (m : Memory L) {addr : UInt8} (h : ¬addr.toNat < L.ram) :
    m.load addr = .error (.outOfRange addr) := by
  rw [load, dif_neg h]

theorem store_eq (m : Memory L) {addr : UInt8} (value : UInt8) (h : addr.toNat < L.ram) :
    m.store addr value = .ok { m with bytes := m.bytes.set addr.toNat value } := by
  rw [store, dif_pos h]

theorem store_eq_error (m : Memory L) {addr : UInt8} (value : UInt8) (h : ¬addr.toNat < L.ram) :
    m.store addr value = .error (.outOfRange addr) := by
  rw [store, dif_neg h]

theorem fetch_eq (m : Memory L) {pos : Int64} (h : L.Fits pos) :
    m.fetch pos = .ok (m.instructionAt pos.toUInt64.toNat h.lt_ram) := by
  rw [fetch, dif_pos h]

theorem fetch_eq_error (m : Memory L) {pos : Int64} (h : ¬L.Fits pos) :
    m.fetch pos = .error (.overflow pos) := by
  rw [fetch, dif_neg h]

@[simp] theorem codeLen_commit (m : Memory L) (code : Array UInt8) :
    (m.commit code).codeLen = code.size := rfl

/-- The program stands from the start of the code region on; all other bytes are
those from before. -/
theorem getElem_commit (m : Memory L) (code : Array UInt8) (a : Nat) (h : a < L.ram) :
    (m.commit code).bytes[a] =
      if hc : L.stack ≤ a ∧ a - L.stack < code.size then code[a - L.stack] else m.bytes[a] := by
  simp [commit]

end Memory

end FlatMemory
