/-!
# Layouts

A memory is one stretch of bytes, numbered from zero.  Its first bytes are the
stack region, the rest is the code region.  The split is a convention: neither
region is protected.

## Main definitions

* `Layout` — how many bytes there are, and how many of them are the stack's.
* `Layout.standard` — the layout in which every address of one byte is valid.
* `Layout.capacity` — the size of the code region.
* `Layout.Fits` — an instruction fits at a position, reckoned in machine words.

## Main results

* `Layout.fits_iff` — the machine words do not wrap: an instruction fits exactly
  where its first and last byte lie in memory.
-/

namespace FlatMemory

/-- The addresses from `start` up to, and without, `stop`. -/
structure Region where
  start : Nat
  stop : Nat
  deriving DecidableEq, Repr

/-- The sizes of a memory.  The stack region lies inside the memory, and sizes are
machine words. -/
structure Layout where
  ram : Nat
  stack : Nat
  stack_le_ram : stack ≤ ram := by decide
  ram_lt : ram < UInt64.size := by decide
  deriving DecidableEq, Repr

namespace Layout

/-- A byte can address 256 bytes, and all of them exist. -/
def standard : Layout where
  ram := 256
  stack := 64

/-- The layout of the given sizes, where they are the sizes of one. -/
def ofSizes? (ram stack : Nat) : Option Layout :=
  if h : stack ≤ ram ∧ ram < UInt64.size then some ⟨ram, stack, h.1, h.2⟩ else none

def capacity (L : Layout) : Nat :=
  L.ram - L.stack

def stackRegion (L : Layout) : Region :=
  ⟨0, L.stack⟩

def codeRegion (L : Layout) : Region :=
  ⟨L.stack, L.ram⟩

@[simp] theorem stack_add_capacity (L : Layout) : L.stack + L.capacity = L.ram :=
  Nat.add_sub_of_le L.stack_le_ram

/-! ### Where an instruction fits -/

/-- The position is not negative, and three bytes from it on the memory has not
ended.  Both sums are of machine words. -/
def Fits (L : Layout) (pos : Int64) : Prop :=
  0 ≤ pos ∧ pos.toUInt64 + 3 ≤ UInt64.ofNat L.ram

instance (L : Layout) (pos : Int64) : Decidable (L.Fits pos) :=
  inferInstanceAs (Decidable (_ ∧ _))

theorem toNat_toUInt64_of_nonneg {pos : Int64} (h : 0 ≤ pos) :
    (pos.toUInt64.toNat : Int) = pos.toInt := by
  have h0 : 0 ≤ pos.toInt := by simpa [Int64.le_iff_toInt_le] using h
  have hlt := pos.toUInt64.toNat_lt
  have hb : pos.toInt = pos.toBitVec.toInt := rfl
  have hn : pos.toUInt64.toNat = pos.toBitVec.toNat := rfl
  rw [hb, BitVec.toInt_eq_toNat_cond] at h0 ⊢
  rw [hn] at hlt ⊢
  split at h0 <;> split <;> omega

/-- The sum does not wrap: an instruction fits exactly where its first and its
last byte lie in memory. -/
theorem fits_iff (L : Layout) (pos : Int64) :
    L.Fits pos ↔ 0 ≤ pos.toInt ∧ pos.toInt + 2 < L.ram := by
  have hpos : 0 ≤ pos ↔ 0 ≤ pos.toInt := by simp [Int64.le_iff_toInt_le]
  rw [Fits, hpos]
  refine and_congr_right fun h0 => ?_
  have hval := toNat_toUInt64_of_nonneg (hpos.2 h0)
  have hmax : pos.toInt < 2 ^ 63 := Int64.toInt_lt pos
  have hram : (UInt64.ofNat L.ram).toNat = L.ram := UInt64.toNat_ofNat_of_lt L.ram_lt
  rw [UInt64.le_iff_toNat_le, hram, UInt64.toNat_add]
  have h3 : (3 : UInt64).toNat = 3 := rfl
  rw [h3]
  omega

theorem Fits.lt_ram {L : Layout} {pos : Int64} (h : L.Fits pos) :
    pos.toUInt64.toNat + 2 < L.ram := by
  have hval := toNat_toUInt64_of_nonneg h.1
  have hlast := ((fits_iff L pos).1 h).2
  omega

end Layout

end FlatMemory
