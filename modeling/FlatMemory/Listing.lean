import FlatMemory.Loading

/-!
# Listings

A listing shows the loaded program instruction by instruction, from the start of the
code region on.  The last instruction may reach beyond the program by a byte or two.

## Main definitions

* `Memory.positions` — where the instructions of the program stand.
* `Memory.walk` — fetches them one after the other, up to the first failure.
* `Listing.line` — the line of an instruction.
* `Memory.listing` — the lines of the program.
-/

namespace FlatMemory

/-- The line of an instruction: its address, at least four digits wide, and its bytes. -/
def Listing.line (entry : Nat × Instruction) : String :=
  String.ofList (Hex.padded 4 entry.1) ++ ": " ++ entry.2.text

namespace Memory

variable {L : Layout}

/-- The number of instructions that the program reaches into. -/
def instructionCount (m : Memory L) : Nat :=
  (m.codeLen + Instruction.width - 1) / Instruction.width

def positions (m : Memory L) : List Nat :=
  (List.range m.instructionCount).map fun i => L.stack + Instruction.width * i

/-- Fetches at each of the addresses until one fails: what was fetched, and the
failure, if there was one. -/
def walk (m : Memory L) : List Nat → List (Nat × Instruction) × Option Failure
  | [] => ([], none)
  | pos :: rest =>
    match m.fetch (Int64.ofNat pos) with
    | .error why => ([], some why)
    | .ok i =>
      let (fetched, failure) := m.walk rest
      ((pos, i) :: fetched, failure)

/-- The lines of the program, and the failure that cut them short, if one did. -/
def listing (m : Memory L) : List String × Option Failure :=
  let (fetched, failure) := m.walk m.positions
  (fetched.map Listing.line, failure)

@[simp] theorem walk_nil (m : Memory L) : m.walk [] = ([], none) := rfl

theorem walk_cons_ok (m : Memory L) {pos : Nat} {rest : List Nat} {i : Instruction}
    (h : m.fetch (Int64.ofNat pos) = .ok i) :
    m.walk (pos :: rest) = ((pos, i) :: (m.walk rest).1, (m.walk rest).2) := by
  rw [walk, h]

theorem walk_cons_error (m : Memory L) {pos : Nat} {rest : List Nat} {why : Failure}
    (h : m.fetch (Int64.ofNat pos) = .error why) :
    m.walk (pos :: rest) = ([], some why) := by
  rw [walk, h]

end Memory

end FlatMemory
