import FlatMemory.Operation

/-!
# Windows on one array of bytes

A memory is looked at byte by byte and through windows of three bytes, and changed one byte at a
time.  The three accesses take addresses of different types and test them in different ways, but
they are about the same bytes: a window shows what loads of its addresses answer, and a store is
seen through each of the windows that lie over its address, and nowhere else.

## Main definitions

* `Memory.byte?` — the byte at an address that is any integer.
* `Memory.stored` — the memory that a store leaves behind.

## Main results

* `Layout.toNat_toUInt64_add` — the words with which a window is reckoned do not wrap.
* `Memory.load_eq_ok_iff`, `Memory.fetch_eq_ok_iff` — a load answers with a byte, and a fetch
  with the bytes of its window.
* `Memory.exists_fetch_eq_ok_iff` — where a window lies in the memory.
* `Operation.perform_store`, `Memory.byte?_stored` — a store changes one byte or, beyond the
  memory, none.
* `fetch_load_store` — the three accesses together.
-/

namespace FlatMemory

universe u v

variable {σ : Type u} {φ : Type v} {L : Layout}

/-! ### Machine words -/

/-- The words do not wrap up to the end of the window at a position. -/
theorem Layout.toNat_toUInt64_add {pos : Int64} (h : 0 ≤ pos) {k : UInt64} (hk : k ≤ 3) :
    ((pos.toUInt64 + k).toNat : Int) = pos.toInt + k.toNat := by
  have hval := toNat_toUInt64_of_nonneg h
  have hmax : pos.toInt < 2 ^ 63 := Int64.toInt_lt pos
  have hwidth : k.toNat ≤ 3 := UInt64.le_iff_toNat_le.mp hk
  rw [UInt64.toNat_add]
  omega

namespace Memory

/-! ### Bytes -/

/-- The byte at an address, which may be any integer. -/
def byte? (m : Memory L) (a : Int) : Option UInt8 :=
  if 0 ≤ a then m.bytes[a.toNat]? else none

@[simp] theorem byte?_natCast (m : Memory L) (a : Nat) : m.byte? a = m.bytes[a]? := by
  simp [byte?]

theorem byte?_eq_none_iff (m : Memory L) (a : Int) :
    m.byte? a = none ↔ ¬(0 ≤ a ∧ a < L.ram) := by
  unfold byte?
  by_cases h : 0 ≤ a
  · rw [if_pos h, Vector.getElem?_eq_none_iff]
    omega
  · simp [h]

/-- A load answers with the byte at its address. -/
theorem load_eq_ok_iff (m : Memory L) (addr b : UInt8) :
    m.load addr = .ok b ↔ m.byte? addr.toNat = some b := by
  rw [byte?_natCast]
  by_cases h : addr.toNat < L.ram
  · rw [m.load_eq h, Vector.getElem?_eq_getElem h, Except.ok.injEq, Option.some_inj]
  · rw [m.load_eq_error h, Vector.getElem?_eq_none (Nat.le_of_not_lt h)]
    simp

/-! ### Windows -/

/-- The window at an address shows the byte there and the two after it. -/
theorem getElem_toBytes_instructionAt (m : Memory L) {a : Nat} (h : a + 2 < L.ram) {k : Nat}
    (hk : k < Instruction.width) :
    m.bytes[a + k]? = some (m.instructionAt a h).toBytes[k] := by
  match k, hk with
  | 0, _ => exact Vector.getElem?_eq_getElem (show a < L.ram by omega)
  | 1, _ => exact Vector.getElem?_eq_getElem (show a + 1 < L.ram by omega)
  | 2, _ => exact Vector.getElem?_eq_getElem h

theorem eq_of_toBytes {i j : Instruction}
    (h : ∀ (k : Nat) (hk : k < Instruction.width), i.toBytes[k] = j.toBytes[k]) : i = j := by
  rw [← Instruction.ofBytes_toBytes i, Vector.ext h, Instruction.ofBytes_toBytes]

/-- **A fetch answers with the bytes of its window**, if all three of them lie in the memory. -/
theorem fetch_eq_ok_iff (m : Memory L) (pos : Int64) (i : Instruction) :
    m.fetch pos = .ok i ↔
      ∀ (k : Nat) (h : k < Instruction.width), m.byte? (pos.toInt + k) = some i.toBytes[k] := by
  by_cases hfits : L.Fits pos
  · have hwindow : ∀ (k : Nat) (hk : k < Instruction.width), m.byte? (pos.toInt + k) =
        some (m.instructionAt pos.toUInt64.toNat hfits.lt_ram).toBytes[k] := by
      intro k hk
      rw [← Layout.toNat_toUInt64_of_nonneg hfits.1, ← Int.natCast_add, byte?_natCast]
      exact m.getElem_toBytes_instructionAt hfits.lt_ram hk
    rw [m.fetch_eq hfits, Except.ok.injEq]
    constructor
    · rintro rfl
      exact hwindow
    · intro h
      apply eq_of_toBytes
      intro k hk
      exact Option.some.inj ((hwindow k hk).symm.trans (h k hk))
  · -- the first or the last byte of the window is missing
    rw [m.fetch_eq_error hfits]
    constructor
    · intro h
      cases h
    · intro h
      -- the first and the last byte are there, and so the window lies in the memory after all
      have hin : ∀ k : Nat, k < Instruction.width → ¬m.byte? (pos.toInt + k) = none := by
        intro k hk
        simp [h k hk]
      have hfirst := hin 0 (by decide)
      have hlast := hin 2 (by decide)
      rw [byte?_eq_none_iff] at hfirst hlast
      rw [Layout.fits_iff] at hfits
      omega

/-- Where a window lies in the memory, over the integers. -/
theorem exists_fetch_eq_ok_iff (m : Memory L) (pos : Int64) :
    (∃ i, m.fetch pos = .ok i) ↔ 0 ≤ pos.toInt ∧ pos.toInt + 2 < L.ram := by
  rw [← Layout.fits_iff]
  by_cases hfits : L.Fits pos
  · simp [m.fetch_eq hfits, hfits]
  · simp [m.fetch_eq_error hfits, hfits]

/-! ### Stores -/

/-- The memory that a store leaves behind, whether or not it succeeds. -/
def stored (m : Memory L) (addr value : UInt8) : Memory L :=
  { m with bytes := m.bytes.setIfInBounds addr.toNat value }

theorem getElem_stored (m : Memory L) (addr value : UInt8) {a : Nat} (h : a < L.ram) :
    (m.stored addr value).bytes[a] = if addr.toNat = a then value else m.bytes[a] :=
  Vector.getElem_setIfInBounds h

theorem stored_of_le (m : Memory L) {addr : UInt8} (value : UInt8) (h : L.ram ≤ addr.toNat) :
    m.stored addr value = m := by
  unfold stored
  rw [Vector.setIfInBounds_eq_of_size_le h]

/-- **A store changes one byte** of the memory, and leaves all others. -/
theorem byte?_stored (m : Memory L) {addr : UInt8} (value : UInt8) (h : addr.toNat < L.ram)
    (a : Int) :
    (m.stored addr value).byte? a = if a = addr.toNat then some value else m.byte? a := by
  by_cases ha : m.byte? a = none
  · have hnone := (m.byte?_eq_none_iff a).mp ha
    rw [if_neg (by omega), ha, byte?_eq_none_iff]
    exact hnone
  · rw [byte?_eq_none_iff, Decidable.not_not] at ha
    obtain ⟨n, rfl⟩ := Int.eq_ofNat_of_zero_le ha.1
    have hn : n < L.ram := by omega
    rw [byte?_natCast, byte?_natCast, Vector.getElem?_eq_getElem hn, Vector.getElem?_eq_getElem hn,
      getElem_stored]
    by_cases haddr : addr.toNat = n
    · simp [haddr]
    · rw [if_neg haddr, if_neg (by omega)]

end Memory

namespace Response

@[simp] theorem memory_reply (m : Memory L) (result : Except Failure Value) :
    (reply m result).memory = m := rfl

@[simp] theorem result_reply (m : Memory L) (result : Except Failure Value) :
    (reply m result).result = result.mapError .failure := rfl

end Response

/-- What a store answers: it is done if its address lies in the memory, and otherwise the
address comes back in the failure and the memory stays as it was. -/
theorem Operation.perform_store [Source σ] [Source φ] (openFile : String → Except IoError φ)
    (m : Memory L) (addr value : UInt8) :
    (store addr value : Operation σ).perform openFile m =
      .reply (m.stored addr value)
        (if addr.toNat < L.ram then .ok .done else .error (.outOfRange addr)) := by
  by_cases h : addr.toNat < L.ram
  · have hset : m.bytes.set addr.toNat value = m.bytes.setIfInBounds addr.toNat value := by
      apply Vector.ext
      intro a ha
      rw [Vector.getElem_set, Vector.getElem_setIfInBounds ha]
    simp only [perform, m.store_eq value h, if_pos h, Memory.stored, hset]
  · simp only [perform, m.store_eq_error value h, if_neg h,
      m.stored_of_le value (Nat.le_of_not_lt h)]

namespace Memory

/-- A store is seen through every window that lies over its address. -/
theorem toBytes_fetch_stored (m : Memory L) {addr value : UInt8} (h : addr.toNat < L.ram)
    {pos : Int64} {i j : Instruction} (hi : m.fetch pos = .ok i)
    (hj : (m.stored addr value).fetch pos = .ok j) (k : Nat) (hk : k < Instruction.width) :
    j.toBytes[k] = if (addr.toNat : Int) - pos.toInt = k then value else i.toBytes[k] := by
  have hbefore := (m.fetch_eq_ok_iff pos i).mp hi k hk
  have hafter := ((m.stored addr value).fetch_eq_ok_iff pos j).mp hj k hk
  rw [m.byte?_stored value h, hbefore] at hafter
  by_cases haddr : pos.toInt + k = addr.toNat
  · rw [if_pos haddr, Option.some_inj] at hafter
    rw [if_pos (by omega), hafter]
  · rw [if_neg haddr, Option.some_inj] at hafter
    rw [if_neg (by omega), hafter]

theorem load_stored_of_ne (m : Memory L) {addr other : UInt8} (value : UInt8) (h : other ≠ addr) :
    (m.stored addr value).load other = m.load other := by
  have hne : ¬addr.toNat = other.toNat := fun heq => h (UInt8.toNat_inj.mp heq.symm)
  by_cases hin : other.toNat < L.ram
  · rw [load_eq _ hin, load_eq _ hin, getElem_stored _ _ _ hin, if_neg hne]
  · rw [load_eq_error _ hin, load_eq_error _ hin]

theorem load_stored (m : Memory L) {addr : UInt8} (value : UInt8) (h : addr.toNat < L.ram) :
    (m.stored addr value).load addr = .ok value := by
  rw [load_eq _ h, getElem_stored _ _ _ h, if_pos rfl]

end Memory

/-- **The three accesses are about one array of bytes**, in every memory of every layout.

A fetch is reckoned in machine words that do not wrap.  It succeeds if and only if the first and
the last byte of its window lie in the memory, over the integers, and otherwise the position comes
back in the failure.  The instruction is made of the bytes of the window, and a load of each of
their addresses to which a byte can point answers with the same byte.

A store succeeds if and only if its address lies in the memory, and otherwise changes nothing.
After a store that succeeds the same fetches succeed as before, and answer with the instructions
from before, but for the field that lies over the address of the store; and a load of any other
address answers as before. -/
theorem fetch_load_store [Source σ] [Source φ] (openFile : String → Except IoError φ)
    (m : Memory L) :
    (UInt64.ofNat L.ram).toNat = L.ram ∧
    (∀ pos : Int64,
      (0 ≤ pos → ∀ k : UInt64, k ≤ 3 → ((pos.toUInt64 + k).toNat : Int) = pos.toInt + k.toNat) ∧
      ((∃ i, m.fetch pos = .ok i) ↔ 0 ≤ pos.toInt ∧ pos.toInt + 2 < L.ram) ∧
      ((¬∃ i, m.fetch pos = .ok i) → m.fetch pos = .error (.overflow pos)) ∧
      ∀ i, m.fetch pos = .ok i →
        (∀ k : UInt64, k < 3 → (pos.toUInt64 + k).toNat < L.ram) ∧
        ∀ (k : Nat) (h : k < Instruction.width),
          m.byte? (pos.toInt + k) = some i.toBytes[k] ∧
          ∀ addr : UInt8, (addr.toNat : Int) = pos.toInt + k → m.load addr = .ok i.toBytes[k]) ∧
    ∀ addr value : UInt8,
      let r := (Operation.store addr value : Operation σ).perform openFile m
      (r.result = .ok .done ↔ addr.toNat < L.ram) ∧
      (r.result ≠ .ok .done →
        r.result = .error (.failure (.outOfRange addr)) ∧ r.memory = m) ∧
      (r.result = .ok .done →
        (∀ pos, (∃ j, r.memory.fetch pos = .ok j) ↔ ∃ i, m.fetch pos = .ok i) ∧
        (∀ pos i j, m.fetch pos = .ok i → r.memory.fetch pos = .ok j →
          ∀ (k : Nat) (h : k < Instruction.width),
            j.toBytes[k] = if (addr.toNat : Int) - pos.toInt = k then value else i.toBytes[k]) ∧
        r.memory.load addr = .ok value ∧
        ∀ other, other ≠ addr → r.memory.load other = m.load other) := by
  refine ⟨UInt64.toNat_ofNat_of_lt L.ram_lt, ?_, ?_⟩
  · intro pos
    refine ⟨fun h k hk => Layout.toNat_toUInt64_add h hk, m.exists_fetch_eq_ok_iff pos, ?_, ?_⟩
    · intro h
      apply m.fetch_eq_error
      rw [Layout.fits_iff, ← m.exists_fetch_eq_ok_iff]
      exact h
    · intro i hi
      have hin := (m.exists_fetch_eq_ok_iff pos).mp ⟨i, hi⟩
      have hbytes := (m.fetch_eq_ok_iff pos i).mp hi
      refine ⟨?_, ?_⟩
      · intro k hk
        have hk' : k.toNat < 3 := UInt64.lt_iff_toNat_lt.mp hk
        have hval := Layout.toNat_toUInt64_add (Int64.le_iff_toInt_le.mpr hin.1)
          (UInt64.le_of_lt hk)
        omega
      · intro k hk
        refine ⟨hbytes k hk, ?_⟩
        intro addr haddr
        rw [m.load_eq_ok_iff, haddr]
        exact hbytes k hk
  · intro addr value r
    have hr : r = _ := Operation.perform_store openFile m addr value
    by_cases h : addr.toNat < L.ram
    · rw [if_pos h] at hr
      have hresult : r.result = .ok .done := by rw [hr, Response.result_reply]; rfl
      have hmemory : r.memory = m.stored addr value := by rw [hr, Response.memory_reply]
      refine ⟨by simp [hresult, h], fun hnot => absurd hresult hnot, fun _ => ?_⟩
      rw [hmemory]
      refine ⟨?_, ?_, m.load_stored value h, fun other hne => m.load_stored_of_ne value hne⟩
      · intro pos
        rw [Memory.exists_fetch_eq_ok_iff, Memory.exists_fetch_eq_ok_iff]
      · intro pos i j hi hj
        exact m.toBytes_fetch_stored h hi hj
    · rw [if_neg h, m.stored_of_le value (Nat.le_of_not_lt h)] at hr
      have hresult : r.result = .error (.failure (.outOfRange addr)) := by
        rw [hr, Response.result_reply]
        rfl
      have hmemory : r.memory = m := by rw [hr, Response.memory_reply]
      refine ⟨by simp [hresult, h], fun _ => ⟨hresult, hmemory⟩, fun hdone => ?_⟩
      rw [hresult] at hdone
      cases hdone

/-- A memory of five bytes: the last window begins at the address two, and a store is seen in the
middle of it.  At the position three no window lies in the memory, and neither does the address
five. -/
theorem fetch_load_store_in_five :
    let L : Layout := { ram := 5, stack := 1 }
    let m : Memory L := ⟨#v[0, 1, 2, 3, 4], 2⟩
    let openFile : String → Except IoError (List Reading) := fun _ => .error (.os .noEntry)
    let store (addr : UInt8) : Response L :=
      (Operation.store addr 9 : Operation (List Reading)).perform openFile m
    m.fetch 2 = .ok ⟨2, 3, 4⟩ ∧ m.load 4 = .ok 4 ∧ m.fetch 3 = .error (.overflow 3) ∧
      (store 5).result = .error (.failure (.outOfRange 5)) ∧ (store 5).memory = m ∧
      (store 3).result = .ok .done ∧ (store 3).memory.fetch 2 = .ok ⟨2, 9, 4⟩ ∧
      (store 3).memory.load 4 = .ok 4 := by
  intro L m openFile store
  obtain ⟨-, hfetch, hstore⟩ := fetch_load_store (σ := List Reading) openFile m
  -- the window at two, and what a load says of its last byte
  obtain ⟨-, -, -, hwindow⟩ := hfetch 2
  have htwo : m.fetch 2 = .ok ⟨2, 3, 4⟩ := by rfl
  have hfour := (((hwindow _ htwo).2 2 (by decide)).2 4 (by decide))
  -- no window at three
  obtain ⟨-, hthree, hoverflow, -⟩ := hfetch 3
  have hnone : ¬∃ i, m.fetch 3 = .ok i := by
    rw [hthree]
    decide
  -- a store beyond the memory, and one that lies in the window
  obtain ⟨hbeyond, hfailed, -⟩ := hstore 5 9
  obtain ⟨hresult, hmemory⟩ := hfailed (mt hbeyond.mp (by decide))
  obtain ⟨hdone, -, hstored⟩ := hstore 3 9
  have hok := hdone.mpr (by decide)
  obtain ⟨hsame, hfields, -, hother⟩ := hstored hok
  obtain ⟨j, hj⟩ := (hsame 2).mpr ⟨_, htwo⟩
  have hnew : j = ⟨2, 9, 4⟩ := by
    apply Memory.eq_of_toBytes
    intro k hk
    rw [hfields 2 _ j htwo hj k hk]
    match k, hk with
    | 0, _ => rfl
    | 1, _ => rfl
    | 2, _ => rfl
  rw [hnew] at hj
  have hlast := (hother 4 (by decide)).trans hfour
  exact ⟨htwo, hfour, hoverflow hnone, hresult, hmemory, hok, hj, hlast⟩

end FlatMemory
