import FlatMemory.Listing
import FlatMemory.Proofs.OneShot

/-!
# The listing of a program

In the standard layout a listing never reaches the end of the memory: the room of the code
region is a whole number of instructions.  Its lines are those of the program's bytes, with
zeros in the place of the bytes that the last instruction lacks.

## Main definitions

* `Hex.fixed width n` — the lowest digits of a number, exactly `width` of them.
* `Listing.row` — the line of an instruction, from the bytes of the program.

## Main results

* `Hex.padded_eq_fixed` — a number of few digits is padded to exactly the width.
* `Memory.walk_eq` — fetching succeeds as long as each instruction lies in the memory.
* `Memory.listing_commit` — the listing of a program in a new memory.
-/

namespace FlatMemory

/-! ### Digits -/

namespace Hex

/-- The lowest `width` hexadecimal digits of a number, the highest of them first. -/
def fixed : Nat → Nat → List Char
  | 0, _ => []
  | width + 1, n => fixed width (n / 16) ++ [Nat.digitChar (n % 16)]

@[simp] theorem fixed_zero_width (n : Nat) : fixed 0 n = [] := rfl

theorem fixed_succ (width n : Nat) :
    fixed (width + 1) n = fixed width (n / 16) ++ [Nat.digitChar (n % 16)] := rfl

theorem fixed_zero (width : Nat) : fixed width 0 = List.replicate width '0' := by
  induction width with
  | zero => rfl
  | succ width ih => rw [fixed_succ, Nat.zero_div, ih, List.replicate_succ']; rfl

/-- A number of few digits is padded to exactly the width. -/
theorem padded_eq_fixed : ∀ (width n : Nat), (Nat.toDigits 16 n).length ≤ width + 1 →
    padded (width + 1) n = fixed (width + 1) n := by
  -- on the width; a number of one digit is all padding but for that digit
  intro width
  induction width with
  | zero =>
    intro n h
    have hn : n < 16 := by
      simpa using (Nat.length_toDigits_le_iff (by decide) (by decide)).mp h
    rw [padded, Nat.toDigits_of_lt_base hn, fixed_succ, Nat.mod_eq_of_lt hn]
    rfl
  | succ width ih =>
    intro n h
    rcases Nat.lt_or_ge n 16 with hn | hn
    · rw [padded, Nat.toDigits_of_lt_base hn, fixed_succ, Nat.mod_eq_of_lt hn,
        Nat.div_eq_of_lt hn, fixed_zero]
      rfl
    · -- the last digit stands apart, and the others are padded
      have hdigits := Nat.toDigits_of_base_le (by decide) hn
      rw [hdigits, List.length_append] at h
      have hrest := ih (n / 16) (by simpa using h)
      rw [fixed_succ, ← hrest, padded, padded, hdigits, List.leftpad, List.leftpad,
        List.length_append, List.length_singleton, Nat.add_sub_add_right, List.append_assoc]

theorem byte_eq_fixed (b : UInt8) : byte b = fixed 2 b.toNat := by
  have hb := b.toNat_lt
  have hhigh : b.toNat / 16 % 16 = b.toNat / 16 := by omega
  simp [byte, fixed, hhigh]

end Hex

/-! ### Fetching the program -/

namespace Memory

variable {L : Layout}

/-- An address from which three bytes lie in the memory is a position that fits. -/
theorem fetch_ofNat (m : Memory L) {a : Nat} (h : a + 2 < L.ram) (ha : a < UInt64.size / 2) :
    m.fetch (Int64.ofNat a) = .ok (m.instructionAt a h) := by
  have hint : (Int64.ofNat a).toInt = a := Int64.toInt_ofNat_of_lt ha
  have hfits : L.Fits (Int64.ofNat a) := by
    rw [Layout.fits_iff, hint]
    omega
  have hval := Layout.toNat_toUInt64_of_nonneg hfits.1
  rw [hint, Int.natCast_inj] at hval
  rw [m.fetch_eq hfits]
  simp only [hval]

/-- The instruction at an address, with zeros for the bytes beyond the memory. -/
def instructionFrom (m : Memory L) (a : Nat) : Instruction :=
  ⟨m.bytes[a]?.getD 0, m.bytes[a + 1]?.getD 0, m.bytes[a + 2]?.getD 0⟩

/-- Fetching succeeds as long as each instruction lies in the memory. -/
theorem walk_eq (m : Memory L) (as : List Nat)
    (h : ∀ a ∈ as, a + 2 < L.ram ∧ a < UInt64.size / 2) :
    m.walk as = (as.map fun a => (a, m.instructionFrom a), none) := by
  induction as with
  | nil => rfl
  | cons a as ih =>
    obtain ⟨hram, hsize⟩ := h a List.mem_cons_self
    have hrest := ih fun x hx => h x (List.mem_cons_of_mem a hx)
    have hfetch : m.fetch (Int64.ofNat a) = .ok (m.instructionFrom a) := by
      rw [m.fetch_ofNat hram hsize]
      simp only [instructionAt, instructionFrom, Vector.getElem?_eq_getElem hram,
        Vector.getElem?_eq_getElem (show a < L.ram by omega),
        Vector.getElem?_eq_getElem (show a + 1 < L.ram by omega), Option.getD_some]
    rw [m.walk_cons_ok hfetch, hrest, List.map_cons]

/-- In the standard layout the program consists of instructions that lie in the memory. -/
theorem listing_eq (m : Memory .standard) (h : m.codeLen ≤ Layout.standard.capacity) :
    m.listing = ((List.range ((m.codeLen + 2) / 3)).map fun i =>
      Listing.line (64 + 3 * i, m.instructionFrom (64 + 3 * i)), none) := by
  have hcapacity : Layout.standard.capacity = 192 := rfl
  have hram : Layout.standard.ram = 256 := rfl
  have hsize : UInt64.size / 2 = 9223372036854775808 := rfl
  have hpositions : m.positions = (List.range ((m.codeLen + 2) / 3)).map fun i => 64 + 3 * i :=
    rfl
  have hwalk := m.walk_eq m.positions <| by
    intro a ha
    rw [hpositions, List.mem_map] at ha
    obtain ⟨i, hi, rfl⟩ := ha
    rw [List.mem_range] at hi
    omega
  unfold listing
  rw [hwalk, hpositions]
  simp only [List.map_map]
  rfl

/-! ### A program in a new memory -/

theorem getD_commit_zeroed {code : List UInt8} (fits : code.length ≤ L.capacity) (k : Nat) :
    (((zeroed L).commit code.toArray).bytes[L.stack + k]?).getD 0 = code.getD k 0 := by
  have hram := L.stack_add_capacity
  rw [List.getD_eq_getElem?_getD]
  by_cases hcode : k < code.length
  · have hin : L.stack + k < L.ram := by omega
    rw [Vector.getElem?_eq_getElem hin, getElem_commit,
      dif_pos ⟨Nat.le_add_right _ _, by simpa using hcode⟩, List.getElem?_eq_getElem hcode,
      Option.getD_some, Option.getD_some]
    simp only [Nat.add_sub_cancel_left, List.getElem_toArray]
  · rw [List.getElem?_eq_none (Nat.le_of_not_lt hcode), Option.getD_none]
    by_cases hin : L.stack + k < L.ram
    · rw [Vector.getElem?_eq_getElem hin, getElem_commit, dif_neg (by simpa using hcode),
        getElem_zeroed, Option.getD_some]
    · rw [Vector.getElem?_eq_none (Nat.le_of_not_lt hin), Option.getD_none]

theorem instructionFrom_commit_zeroed {code : List UInt8} (fits : code.length ≤ L.capacity)
    (k : Nat) :
    ((zeroed L).commit code.toArray).instructionFrom (L.stack + k) =
      ⟨code.getD k 0, code.getD (k + 1) 0, code.getD (k + 2) 0⟩ := by
  unfold instructionFrom
  rw [Nat.add_assoc L.stack, Nat.add_assoc L.stack, getD_commit_zeroed fits,
    getD_commit_zeroed fits, getD_commit_zeroed fits]

end Memory

/-- The line of the `i`-th instruction of a program: its address in the standard layout with
four digits, and its three bytes with two digits each.  Bytes that the program lacks are
zeros. -/
def Listing.row (program : List UInt8) (i : Nat) : String :=
  String.ofList (Hex.fixed 4 (64 + 3 * i)) ++ ": "
    ++ String.ofList (Hex.fixed 2 (program.getD (3 * i) 0).toNat) ++ " "
    ++ String.ofList (Hex.fixed 2 (program.getD (3 * i + 1) 0).toNat) ++ " "
    ++ String.ofList (Hex.fixed 2 (program.getD (3 * i + 2) 0).toNat)

theorem Listing.line_eq_row {program : List UInt8} {i : Nat} (hi : i < 64) :
    line (64 + 3 * i, ⟨program.getD (3 * i) 0, program.getD (3 * i + 1) 0,
      program.getD (3 * i + 2) 0⟩) = row program i := by
  have hdigits : (Nat.toDigits 16 (64 + 3 * i)).length ≤ 3 + 1 :=
    (Nat.length_toDigits_le_iff (by decide) (by decide)).mpr (by omega)
  have haddress := Hex.padded_eq_fixed 3 (64 + 3 * i) hdigits
  unfold line row Instruction.text
  apply String.toList_injective
  simp only [haddress, Hex.byte_eq_fixed, String.toList_append, String.toList_ofList]
  simp

/-- **The listing of a program in a new memory** has a row for every three bytes that were
begun, and no failure. -/
theorem Memory.listing_commit {program : List UInt8}
    (fits : program.length ≤ Layout.standard.capacity) :
    ((zeroed .standard).commit program.toArray).listing =
      ((List.range ((program.length + 2) / 3)).map (Listing.row program), none) := by
  have hcapacity : Layout.standard.capacity = 192 := rfl
  rw [listing_eq _ (by simpa using fits), Prod.mk.injEq]
  refine ⟨List.map_congr_left ?_, rfl⟩
  intro i hi
  rw [List.mem_range, codeLen_commit, List.size_toArray] at hi
  have hinstruction := instructionFrom_commit_zeroed fits (3 * i)
  have hstack : Layout.standard.stack = 64 := rfl
  rw [hstack] at hinstruction
  rw [hinstruction, Listing.line_eq_row (by omega)]

end FlatMemory
