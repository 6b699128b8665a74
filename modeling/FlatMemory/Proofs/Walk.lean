import FlatMemory.Proofs.Listing
import FlatMemory.Proofs.Reachable

/-!
# The walk through a program

A walk fetches an instruction from every third address of a program.  The last one may reach two
bytes beyond the program, and if the code region has no room for them, beyond the end of the
memory.  Whether it does depends on the code length and on the remainder that the code region
leaves when it is divided into instructions, and on nothing else.

## Main definitions

* `Memory.lastPosition` — the last address of a walk.
* `Memory.walked` — the bytes of the instructions that a walk has fetched.

## Main results

* `Memory.mem_positions_iff` — the addresses of a walk.
* `Memory.exists_fetch_iff` — where a fetch succeeds, by address.
* `Memory.failure_walk_eq_none_iff` — a walk succeeds if and only if all its
  fetches do.
* `Memory.walk_append` — a walk goes on behind instructions that lie in the memory.
* `Memory.forall_exists_fetch_iff` — fetching succeeds everywhere if and only if there is room
  for whole instructions.
* `Memory.failure_walk_of_lt` — where a walk fails if there is not.
* `Memory.walked_eq` — a walk that succeeds has fetched the code region up to the end of the
  last instruction.
* `walk_of_reaches` — walks through all memories that are reached from a new one.
-/

namespace FlatMemory

variable {L : Layout}

namespace Memory

/-! ### Where a walk fetches -/

theorem instructionCount_eq (m : Memory L) : m.instructionCount = (m.codeLen + 2) / 3 := rfl

/-- The addresses of a walk: every third one from the start of the program on. -/
theorem mem_positions_iff (m : Memory L) (a : Nat) :
    a ∈ m.positions ↔ a < L.stack + m.codeLen ∧ ∃ i, a = L.stack + 3 * i := by
  unfold positions
  rw [List.mem_map, instructionCount_eq]
  constructor
  · rintro ⟨i, hi, rfl⟩
    rw [List.mem_range] at hi
    have ha : L.stack + 3 * i < L.stack + m.codeLen := by omega
    exact ⟨ha, i, rfl⟩
  · rintro ⟨ha, i, rfl⟩
    refine ⟨i, ?_, rfl⟩
    rw [List.mem_range]
    omega

/-- The last address of a walk, if the program has any bytes. -/
def lastPosition (m : Memory L) : Nat :=
  L.stack + 3 * (m.instructionCount - 1)

theorem positions_eq_append (m : Memory L) (h : 0 < m.codeLen) :
    m.positions = ((List.range (m.instructionCount - 1)).map fun i => L.stack + 3 * i) ++
      [m.lastPosition] := by
  have hcount : m.instructionCount = m.instructionCount - 1 + 1 := by
    rw [instructionCount_eq]
    omega
  unfold positions lastPosition
  rw [hcount, List.range_succ, List.map_append]
  rfl

theorem fetch_ofNat_eq_error (m : Memory L) {a : Nat} (h : L.ram ≤ a + 2)
    (ha : a < UInt64.size / 2) :
    m.fetch (Int64.ofNat a) = .error (.overflow (Int64.ofNat a)) := by
  have hint : (Int64.ofNat a).toInt = a := Int64.toInt_ofNat_of_lt ha
  apply m.fetch_eq_error
  rw [Layout.fits_iff, hint]
  omega

/-- Where a fetch succeeds, by address. -/
theorem exists_fetch_iff (m : Memory L) {a : Nat} (ha : a < UInt64.size / 2) :
    (∃ i, m.fetch (Int64.ofNat a) = .ok i) ↔ a + 2 < L.ram := by
  constructor
  · rintro ⟨i, hi⟩
    rcases Nat.lt_or_ge (a + 2) L.ram with hram | hram
    · exact hram
    · rw [m.fetch_ofNat_eq_error hram ha] at hi
      cases hi
  · intro hram
    exact ⟨_, m.fetch_ofNat hram ha⟩

theorem failure_walk_eq_none_iff (m : Memory L) (as : List Nat) :
    (m.walk as).2 = none ↔ ∀ a ∈ as, ∃ i, m.fetch (Int64.ofNat a) = .ok i := by
  induction as with
  | nil => simp
  | cons a as ih =>
    rw [List.forall_mem_cons]
    cases hfetch : m.fetch (Int64.ofNat a) with
    | ok i =>
      rw [m.walk_cons_ok hfetch, ih]
      exact ⟨fun h => ⟨⟨i, rfl⟩, h⟩, fun h => h.2⟩
    | error why =>
      rw [m.walk_cons_error hfetch]
      constructor
      · intro h
        cases h
      · rintro ⟨⟨i, h⟩, -⟩
        cases h

/-- A walk goes on behind instructions that lie in the memory. -/
theorem walk_append (m : Memory L) {as : List Nat}
    (h : ∀ a ∈ as, a + 2 < L.ram ∧ a < UInt64.size / 2) (bs : List Nat) :
    m.walk (as ++ bs) = ((m.walk as).1 ++ (m.walk bs).1, (m.walk bs).2) := by
  induction as with
  | nil => rfl
  | cons a as ih =>
    obtain ⟨hram, hsize⟩ := h a List.mem_cons_self
    have hrest := ih fun x hx => h x (List.mem_cons_of_mem a hx)
    have hfetch := m.fetch_ofNat hram hsize
    rw [List.cons_append, m.walk_cons_ok hfetch, m.walk_cons_ok hfetch, hrest, List.cons_append]

/-! ### When a walk succeeds -/

section Room

variable {m : Memory L} (hsize : L.ram < UInt64.size / 2) (hfits : m.codeLen ≤ L.capacity)

include hsize hfits

/-- All instructions but the last lie in the memory, and so does the last one if there is room
for whole instructions. -/
theorem lt_ram_of_mem_positions {a : Nat} (ha : a ∈ m.positions)
    (h : a ≠ m.lastPosition ∨ 3 * m.instructionCount ≤ L.capacity) :
    a + 2 < L.ram ∧ a < UInt64.size / 2 := by
  have hcount := m.instructionCount_eq
  have hram := L.stack_add_capacity
  obtain ⟨hlt, i, rfl⟩ := (m.mem_positions_iff a).mp ha
  unfold lastPosition at h
  omega

/-- If there is not, it reaches beyond the end of the memory. -/
theorem lastPosition_of_lt (hroom : L.capacity < 3 * m.instructionCount) :
    m.lastPosition ∈ m.positions ∧ L.ram ≤ m.lastPosition + 2 ∧
      m.lastPosition < UInt64.size / 2 := by
  have hcount := m.instructionCount_eq
  have hram := L.stack_add_capacity
  rw [mem_positions_iff]
  unfold lastPosition
  exact ⟨⟨by omega, _, rfl⟩, by omega, by omega⟩

/-- Fetching succeeds everywhere if and only if there is room for whole instructions. -/
theorem forall_exists_fetch_iff :
    (∀ a ∈ m.positions, ∃ i, m.fetch (Int64.ofNat a) = .ok i) ↔
      3 * m.instructionCount ≤ L.capacity := by
  constructor
  · intro hall
    rcases Nat.lt_or_ge L.capacity (3 * m.instructionCount) with hroom | hroom
    · obtain ⟨hmem, hend, haddress⟩ := lastPosition_of_lt hsize hfits hroom
      have hlt := (m.exists_fetch_iff haddress).mp (hall _ hmem)
      omega
    · exact hroom
  · intro hroom a ha
    obtain ⟨hlt, haddress⟩ := lt_ram_of_mem_positions hsize hfits ha (.inr hroom)
    exact (m.exists_fetch_iff haddress).mpr hlt

theorem failure_walk_of_lt (hroom : L.capacity < 3 * m.instructionCount) :
    (m.walk m.positions).2 = some (.overflow (Int64.ofNat m.lastPosition)) := by
  have hcount := m.instructionCount_eq
  obtain ⟨-, hend, haddress⟩ := lastPosition_of_lt hsize hfits hroom
  have hsplit := m.positions_eq_append (by omega)
  rw [hsplit, m.walk_append, m.walk_cons_error (m.fetch_ofNat_eq_error hend haddress)]
  intro a ha
  refine lt_ram_of_mem_positions hsize hfits ?_ (.inl ?_)
  · rw [hsplit]
    exact List.mem_append_left _ ha
  · obtain ⟨i, hi, rfl⟩ := List.mem_map.mp ha
    rw [List.mem_range] at hi
    unfold lastPosition
    omega

/-- **A walk succeeds** if and only if there is room for whole instructions. -/
theorem failure_walk_iff :
    (m.walk m.positions).2 = none ↔ 3 * m.instructionCount ≤ L.capacity :=
  (m.failure_walk_eq_none_iff m.positions).trans (forall_exists_fetch_iff hsize hfits)

end Room

/-! ### What a walk fetches -/

/-- The bytes of the instructions that a walk through the program has fetched. -/
def walked (m : Memory L) : List UInt8 :=
  (m.walk m.positions).1.flatMap fun entry => entry.2.toBytes.toList

theorem toBytes_instructionFrom (m : Memory L) {a : Nat} (h : a + 2 < L.ram) :
    (m.instructionFrom a).toBytes.toList = (m.bytes.toList.drop a).take 3 := by
  have hlength : m.bytes.toList.length = L.ram := Vector.length_toList
  rw [List.drop_eq_getElem_cons (by omega), List.drop_eq_getElem_cons (by omega),
    List.drop_eq_getElem_cons (by omega)]
  simp only [instructionFrom, Instruction.toBytes, Vector.getElem?_eq_getElem h,
    Vector.getElem?_eq_getElem (show a < L.ram by omega),
    Vector.getElem?_eq_getElem (show a + 1 < L.ram by omega), Option.getD_some,
    Vector.getElem_toList]
  rfl

theorem flatMap_toBytes (m : Memory L) {n : Nat} (h : 3 * n ≤ L.capacity) :
    ((List.range n).flatMap fun i => (m.instructionFrom (L.stack + 3 * i)).toBytes.toList) =
      m.codeBytes.take (3 * n) := by
  have hram := L.stack_add_capacity
  induction n with
  | zero => rfl
  | succ n ih =>
    have hlast : (m.instructionFrom (L.stack + 3 * n)).toBytes.toList =
        (m.codeBytes.drop (3 * n)).take 3 := by
      rw [m.toBytes_instructionFrom (by omega), codeBytes, List.drop_drop]
    rw [List.range_succ, List.flatMap_append, ih (by omega), List.flatMap_cons, List.flatMap_nil,
      List.append_nil, hlast, ← List.take_add]
    rfl

/-- A walk that succeeds has fetched the code region up to the end of its last
instruction. -/
theorem walked_eq {m : Memory L} (hsize : L.ram < UInt64.size / 2)
    (hfits : m.codeLen ≤ L.capacity) (hroom : 3 * m.instructionCount ≤ L.capacity) :
    m.walked = m.codeBytes.take (3 * m.instructionCount) := by
  unfold walked
  rw [m.walk_eq m.positions fun a ha => lt_ram_of_mem_positions hsize hfits ha (.inr hroom),
    ← m.flatMap_toBytes hroom, positions, List.map_map, List.flatMap_map]
  rfl

end Memory

/-- **The walk through a program.**  Let commands lead from a new memory to another, in any
layout; no more bytes can be reserved for a memory than a signed machine word counts.  The
program that is then in it begins `n` instructions, and a walk fetches at each third address up
to its end.  It succeeds everywhere if and only if there is room for `n` whole instructions.  If
there is not, it fails at the last address and nowhere else, and the failure tells that address.
So it never fails if the code region is a whole number of instructions, as in the standard
layout, and otherwise it fails if and only if the program reaches into the last bytes, which
make up no instruction.  When it succeeds, the instructions are the program, and what the last
one has beyond it, at most two bytes, are those that stand in the memory there. -/
theorem walk_of_reaches {limit : Nat} {m₀ m : Memory L} {log : List Event}
    (hlimit : limit < UInt64.size / 2) (hnew : Memory.allocate L limit = (.ok m₀, log))
    (hreaches : m₀.Reaches m) :
    let n := (m.codeLen + 2) / 3
    let last := L.stack + 3 * (n - 1)
    let failure := (m.walk m.positions).2
    (∀ a, a ∈ m.positions ↔ a < L.stack + m.codeLen ∧ ∃ i, a = L.stack + 3 * i) ∧
    ((∀ a ∈ m.positions, ∃ i, m.fetch (.ofNat a) = .ok i) ↔ 3 * n ≤ L.capacity) ∧
    (failure = none ↔ 3 * n ≤ L.capacity) ∧
    (L.capacity < 3 * n →
      last ∈ m.positions ∧ (Int64.ofNat last).toInt = last ∧
      m.fetch (.ofNat last) = .error (.overflow (.ofNat last)) ∧
      (∀ a ∈ m.positions, a ≠ last → ∃ i, m.fetch (.ofNat a) = .ok i) ∧
      failure = some (.overflow (.ofNat last))) ∧
    (3 ∣ L.capacity → failure = none) ∧ 3 ∣ Layout.standard.capacity ∧
    (¬3 ∣ L.capacity → (failure ≠ none ↔ L.capacity - L.capacity % 3 < m.codeLen)) ∧
    (failure = none →
      m.walked.take m.codeLen = m.code ∧
      m.walked.drop m.codeLen = (m.codeBytes.drop m.codeLen).take (3 * n - m.codeLen) ∧
      3 * n ≤ m.codeLen + 2) := by
  intro n last failure
  obtain rfl := Memory.eq_zeroed_of_allocate hnew
  have hfits := (hreaches.attainable (Memory.attainable_zeroed L)).codeLen_le
  -- every address of the memory is a position, so that no address is taken for a negative one
  have hsize : L.ram < UInt64.size / 2 := by
    unfold Memory.allocate at hnew
    split at hnew
    · omega
    · cases hnew
  have hn : n = (m.codeLen + 2) / 3 := rfl
  have hcount : m.instructionCount = n := rfl
  have hfailure := Memory.failure_walk_iff hsize hfits
  refine ⟨m.mem_positions_iff, Memory.forall_exists_fetch_iff hsize hfits, hfailure, ?_, ?_,
    by decide, ?_, ?_⟩
  · intro hroom
    obtain ⟨hmem, hend, haddress⟩ := Memory.lastPosition_of_lt hsize hfits hroom
    refine ⟨hmem, Int64.toInt_ofNat_of_lt haddress, m.fetch_ofNat_eq_error hend haddress, ?_,
      Memory.failure_walk_of_lt hsize hfits hroom⟩
    intro a ha hlast
    obtain ⟨hlt, haddress⟩ := Memory.lt_ram_of_mem_positions hsize hfits ha (.inl hlast)
    exact (m.exists_fetch_iff haddress).mpr hlt
  · -- with whole instructions the room for the last one is there
    rintro ⟨q, hq⟩
    exact hfailure.mpr (by omega)
  · intro hrest
    rw [ne_eq, hfailure]
    omega
  · intro hnone
    have hwalked := Memory.walked_eq hsize hfits (hfailure.mp hnone)
    refine ⟨?_, ?_, by omega⟩
    · rw [hwalked, List.take_take, Nat.min_eq_left (by omega)]
      rfl
    · rw [hwalked, List.drop_take]
      rfl

/-- The code region has four bytes.  A walk through two of them fetches one more, and a walk
through all of them fails at the second instruction. -/
theorem walk_of_reaches_in_four :
    let L : Layout := { ram := 5, stack := 1 }
    let m₀ := Memory.zeroed L
    let short : Memory L := ⟨#v[0, 1, 2, 3, 4], 2⟩
    let full : Memory L := ⟨#v[0, 1, 2, 3, 4], 4⟩
    Memory.allocate L 5 = (.ok m₀, [.allocated 5 1]) ∧ m₀.Reaches short ∧ m₀.Reaches full ∧
      (short.walk short.positions).2 = none ∧ short.walked.take 2 = [1, 2] ∧
      short.walked.drop 2 = [3] ∧ (full.walk full.positions).2 = some (.overflow 4) := by
  intro L m₀ short full
  have hlimit : 5 < UInt64.size / 2 := by decide
  have hnew : Memory.allocate L 5 = (.ok m₀, [.allocated 5 1]) := rfl
  have hram : L.ram = 5 := rfl
  have hreaches : ∀ m : Memory L, m.codeLen ≤ 4 → m₀.Reaches m := by
    intro m hfits
    have hm : m.Attainable := ⟨hfits, fun a h hfar _ => by omega⟩
    rw [← Memory.after_rebuilding hm]
    exact Memory.Reaches.start.after m.rebuilding
  have hshort := hreaches short (by decide)
  have hfull := hreaches full (by decide)
  obtain ⟨-, -, hsuccess, -, -, -, -, hbytes⟩ := walk_of_reaches hlimit hnew hshort
  obtain ⟨-, -, -, hlast, -⟩ := walk_of_reaches hlimit hnew hfull
  have hnone := hsuccess.mpr (by decide)
  obtain ⟨hcode, hextra, -⟩ := hbytes hnone
  have htwo : short.codeLen = 2 := rfl
  have hfour : full.codeLen = 4 := rfl
  obtain ⟨-, -, -, -, hfailure⟩ := hlast (by decide)
  rw [htwo] at hextra
  rw [hfour] at hfailure
  exact ⟨hnew, hshort, hfull, hnone, hcode, hextra, hfailure⟩

end FlatMemory
