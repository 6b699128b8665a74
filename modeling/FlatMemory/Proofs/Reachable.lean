import FlatMemory.Proofs.Committed

/-!
# The memories that can be reached

A store writes where a byte can point, and a load writes into the code region.  If the stack
region is larger than that, the rest of it is out of reach and stays zero for ever.  Nothing
else is out of reach: any bytes elsewhere, together with any code length that fits, are what
some run of a new memory leaves behind.

## Main definitions

* `Memory.Attainable` — the code length fits, and the part of the stack region that no store
  reaches is zero.
* `Memory.Reaches` — the memories that a memory is led to by commands.
* `Memory.rebuilding` — the commands that lead from a new memory to an attainable one.

## Main results

* `Command.put?_eq_some` — what a command writes to is near the start or in the code region.
* `Memory.Attainable.perform`, `Memory.Reaches.attainable` — the invariant, for one command
  and for a run.
* `exists_course_each` — a program that fits can be delivered byte by byte.
* `Memory.after_rebuilding` — every attainable memory is the end of a run.
* `exists_reaches_iff` — **the exact set of memories that are reached from a new one.**
-/

namespace FlatMemory

universe u v

variable {σ : Type u} {φ : Type v} {L : Layout}

/-! ### The invariant -/

/-- The code length fits in the code region, and the bytes of the stack region to which no byte
can point are zero. -/
structure Memory.Attainable (m : Memory L) : Prop where
  codeLen_le : m.codeLen ≤ L.capacity
  /-- The far part of the stack region is as it was in the beginning. -/
  far : ∀ (a : Nat) (h : a < L.ram), 256 ≤ a → a < L.stack → m.bytes[a] = 0

theorem Memory.attainable_zeroed (L : Layout) : (zeroed L).Attainable where
  codeLen_le := Nat.zero_le _
  far a h _ _ := getElem_zeroed a h

theorem Response.committed?_eq_some {r : Response L} {code code' : List UInt8}
    (h : r.committed? code = some code') : code' = code := by
  unfold Response.committed? at h
  split at h
  · exact (Option.some.inj h).symm
  · exact (Option.some.inj h).symm
  · cases h

namespace Command

variable [Source σ] [Source φ]

theorem length_committed?_le {c : Command σ φ} {r : Response L} {code : List UInt8}
    (h : c.committed? r = some code) : code.length ≤ L.capacity := by
  unfold committed? at h
  split at h
  · rw [Response.committed?_eq_some h]
    exact L.length_collected_le _
  · split at h
    · rw [Response.committed?_eq_some h]
      exact L.length_collected_le _
    · rw [Response.committed?_eq_some h]
      exact Nat.zero_le _
  · cases h

/-- What a command writes to is an address to which a byte can point, or it lies in the code
region. -/
theorem put?_eq_some {c : Command σ φ} {r : Response L} {a : Nat} {b : UInt8}
    (h : c.put? r a = some b) : a < 256 ∨ L.stack ≤ a := by
  unfold put? at h
  split at h
  · -- a store
    split at h
    · rename_i haddr
      rw [← haddr]
      exact .inl (UInt8.toNat_lt _)
    · cases h
  · -- the code of a load, if there is any
    obtain ⟨code, -, hcode⟩ := Option.bind_eq_some_iff.mp h
    unfold Layout.codeAt? at hcode
    split at hcode
    · rename_i hstack
      exact .inr hstack
    · cases hcode

end Command

namespace Memory

variable [Source σ] [Source φ]

/-- **One command keeps the invariant**, whether or not it succeeds. -/
theorem Attainable.perform {m : Memory L} (h : m.Attainable) (c : Command σ φ) :
    (c.perform m).memory.Attainable := by
  constructor
  · rw [c.codeLen_perform]
    cases hcode : c.committed? (c.perform m) with
    | none => exact h.codeLen_le
    | some code => exact Command.length_committed?_le hcode
  · intro a ha hfar hstack
    rw [c.getElem_perform m ha]
    cases hput : c.put? (c.perform m) a with
    | none => exact h.far a ha hfar hstack
    | some b =>
      rcases Command.put?_eq_some hput with hnear | hcode
      · omega
      · omega

/-- The memories to which commands lead, one after the other.  Each command brings its own
sources and files. -/
inductive Reaches (m₀ : Memory L) : Memory L → Prop
  | start : Reaches m₀ m₀
  | perform {σ φ : Type} [Source σ] [Source φ] {m : Memory L} (c : Command σ φ) :
      Reaches m₀ m → Reaches m₀ (c.perform m).memory

/-- A run keeps the invariant. -/
theorem Reaches.attainable {m₀ m : Memory L} (h : m₀.Reaches m) (h₀ : m₀.Attainable) :
    m.Attainable := by
  induction h with
  | start => exact h₀
  | perform c _ ih => exact ih.perform c

theorem Reaches.after {σ φ : Type} [Source σ] [Source φ] (cs : List (Command σ φ)) :
    ∀ {m₀ m : Memory L}, m₀.Reaches m → m₀.Reaches (m.after cs) := by
  induction cs with
  | nil => intro m₀ m h; exact h
  | cons c cs ih => intro m₀ m h; exact ih (h.perform c)

end Memory

/-! ### Commands that put bytes where they belong -/

/-- A source that delivers a program byte by byte. -/
def Reading.each (code : List UInt8) : List Reading :=
  code.map fun b => .exactly [b]

namespace Staging

theorem absorbAll_each {capacity : Nat} (code : List UInt8) : ∀ {s : Staging},
    s.staged.size + code.length ≤ capacity →
      ∃ s', s.absorbAll capacity (Reading.each code) = .ok s' ∧
        s'.staged = s.staged ++ code.toArray := by
  induction code with
  | nil => intro s _; exact ⟨s, rfl, by simp⟩
  | cons b code ih =>
    intro s h
    rw [List.length_cons] at h
    have hroom : 1 ≤ s.room capacity := by
      unfold room
      omega
    have hfirst := absorb_taken [b] (Nat.le_refl 1) (by decide) hroom
    have hfront : (s.chunk.overwrite [b]).front 1 = #[b] :=
      Array.toList_inj.mp (toList_front_overwrite s.chunk (Nat.le_refl 1) (by decide))
    rw [hfront] at hfirst
    have hsize : (s.staged ++ #[b]).size = s.staged.size + 1 := Array.size_append
    let s₁ : Staging := ⟨s.staged ++ #[b], s.chunk.overwrite [b]⟩
    have hfits : s₁.staged.size + code.length ≤ capacity := by
      show (s.staged ++ #[b]).size + code.length ≤ capacity
      omega
    obtain ⟨s', hrest, hstaged⟩ := ih hfits
    refine ⟨s', ?_, ?_⟩
    · have heach : Reading.each (b :: code) = .got 1 [b] :: Reading.each code := rfl
      rw [heach, absorbAll_cons_ok hfirst, hrest]
    · rw [hstaged]
      show s.staged ++ #[b] ++ code.toArray = _
      simp

end Staging

/-- A program that fits can be delivered byte by byte. -/
theorem exists_course_each {capacity : Nat} {code : List UInt8} (fits : code.length ≤ capacity) :
    ∃ filled, Course capacity .start (Reading.each code) (Reading.each code) filled .nothing
      (.complete code.toArray) := by
  obtain ⟨filled, habsorbed, hstaged⟩ : ∃ s,
      Staging.start.absorbAll capacity (Reading.each code) = .ok s ∧
        s.staged = #[] ++ code.toArray :=
    Staging.absorbAll_each code (by simpa using fits)
  refine ⟨filled, ?_, habsorbed, ?_⟩
  · rw [Source.readings_list, List.take_append, Nat.add_sub_cancel_left,
      List.take_of_length_le (Nat.le_succ _), List.take_replicate,
      Nat.min_eq_left (Nat.le_add_left 1 _)]
    rfl
  · have hend : filled.absorb capacity .nothing = _ := Staging.absorb_nothing capacity filled []
    rw [hend, hstaged]
    simp

namespace Command

def loading (code : List UInt8) : Command (List Reading) (List Reading) :=
  ⟨.loadCode (Reading.each code), fun _ => .error (.plain .notFound)⟩

def storing (a : Nat) (value : UInt8) : Command (List Reading) (List Reading) :=
  ⟨.store (.ofNat a) value, fun _ => .error (.plain .notFound)⟩

theorem memory_loading (m : Memory L) {code : List UInt8} (fits : code.length ≤ L.capacity) :
    ((loading code).perform m).memory = m.commit code.toArray := by
  obtain ⟨filled, hcourse⟩ := exists_course_each fits
  have hmemory : ((loading code).perform m).memory =
      (m.loadCode (Reading.each code)).memory := rfl
  rw [hmemory, hcourse.loadCode_eq]
  rfl

theorem memory_storing (m : Memory L) {a : Nat} (value : UInt8) (hbyte : a < 256)
    (h : a < L.ram) :
    ((storing a value).perform m).memory = { m with bytes := m.bytes.set a value } := by
  have haddr : (UInt8.ofNat a).toNat = a := UInt8.toNat_ofNat_of_lt hbyte
  have hlt : (UInt8.ofNat a).toNat < L.ram := by omega
  simp only [storing, perform, Operation.perform, m.store_eq value hlt, haddr]
  rfl

end Command

namespace Memory

theorem after_append [Source σ] [Source φ] (m : Memory L) (cs cs' : List (Command σ φ)) :
    m.after (cs ++ cs') = (m.after cs).after cs' :=
  List.foldl_append

def storing (m : Memory L) (n : Nat) : List (Command (List Reading) (List Reading)) :=
  (List.range n).map fun a => .storing a (m.bytes[a]?.getD 0)

theorem after_storing (m m' : Memory L) : ∀ n, n ≤ 256 → n ≤ L.ram →
    (m'.after (m.storing n)).codeLen = m'.codeLen ∧
      ∀ (a : Nat) (h : a < L.ram), (m'.after (m.storing n)).bytes[a] =
        if a < n then m.bytes[a] else m'.bytes[a] := by
  intro n
  induction n with
  | zero =>
    intro _ _
    exact ⟨rfl, fun a h => rfl⟩
  | succ n ih =>
    intro hbyte hram
    obtain ⟨hlen, hbytes⟩ := ih (by omega) (by omega)
    have hlast : m.bytes[n]?.getD 0 = m.bytes[n] := by
      rw [Vector.getElem?_eq_getElem hram, Option.getD_some]
    have hstores : m.storing (n + 1) = m.storing n ++ [.storing n m.bytes[n]] := by
      unfold storing
      rw [List.range_succ, List.map_append, List.map_singleton, hlast]
    have hafter : m'.after (m.storing (n + 1)) = { m'.after (m.storing n) with
        bytes := (m'.after (m.storing n)).bytes.set n m.bytes[n] } := by
      rw [hstores, after_append]
      exact Command.memory_storing _ _ (by omega) hram
    rw [hafter]
    refine ⟨hlen, ?_⟩
    intro a h
    rw [Vector.getElem_set, hbytes a h]
    rcases Nat.lt_trichotomy a n with hlt | rfl | hgt
    · rw [if_neg (by omega), if_pos hlt, if_pos (by omega)]
    · rw [if_pos rfl, if_pos (by omega)]
    · rw [if_neg (by omega), if_neg (by omega), if_neg (by omega)]

/-! ### Rebuilding a memory -/

/-- The commands that lead from a new memory to this one: a load that fills the code region, a
shorter one for the code length, which leaves the rest of the code region alone, and stores into
the stack region. -/
def rebuilding (m : Memory L) : List (Command (List Reading) (List Reading)) :=
  [.loading m.codeBytes, .loading m.code] ++ m.storing (min 256 L.stack)

/-- **Every attainable memory is rebuilt.** -/
theorem after_rebuilding {m : Memory L} (hm : m.Attainable) :
    (zeroed L).after m.rebuilding = m := by
  have hram := L.stack_add_capacity
  have hregion := m.length_codeBytes
  have hfits := hm.codeLen_le
  have hshort : m.code.length = m.codeLen := by
    unfold code
    rw [List.length_take]
    omega
  -- after the two loads the code region and the code length are right
  let loaded := ((zeroed L).commit m.codeBytes.toArray).commit m.code.toArray
  have hloaded : (zeroed L).after m.rebuilding = loaded.after (m.storing (min 256 L.stack)) := by
    unfold rebuilding
    rw [after_append]
    show (((Command.loading _).perform
      ((Command.loading _).perform (zeroed L)).memory).memory).after _ = _
    rw [Command.memory_loading _ (Nat.le_of_eq hregion),
      Command.memory_loading _ (by omega)]
  obtain ⟨hlen, hbytes⟩ := m.after_storing loaded (min 256 L.stack) (by omega) (by omega)
  rw [hloaded]
  apply eq_of_getElem
  · rw [hlen]
    show m.code.toArray.size = m.codeLen
    rw [List.size_toArray, hshort]
  · intro a h
    rw [hbytes a h]
    by_cases hnear : a < min 256 L.stack
    · rw [if_pos hnear]
    · rw [if_neg hnear]
      show (commit _ _).bytes[a] = _
      rw [getElem_commit, getElem_commit]
      by_cases hstack : L.stack ≤ a
      · -- the code region: the second load puts the same bytes there as the first
        obtain ⟨i, rfl⟩ := Nat.exists_eq_add_of_le hstack
        have hi : i < m.codeBytes.length := by omega
        have hget := m.getElem_codeBytes i hi h
        split
        · simp only [Nat.add_sub_cancel_left, List.getElem_toArray, code, List.getElem_take]
          exact hget
        · rw [dif_pos ⟨hstack, by rw [List.size_toArray]; omega⟩]
          simp only [Nat.add_sub_cancel_left, List.getElem_toArray]
          exact hget
      · -- the far part of the stack region
        rw [dif_neg (fun hc => hstack hc.1), dif_neg (fun hc => hstack hc.1), getElem_zeroed,
          hm.far a h (by omega) (by omega)]

end Memory

/-! ### The set of reachable memories -/

/-- **The exact set of memories that are reached from a new one.**  Bytes and a code length
belong to some memory to which commands lead if and only if there are as many bytes as the
layout says, the code length fits in the code region, and the bytes of the stack region from
address 256 on are zero.  In particular the code that was loaded last always ends inside the
memory. -/
theorem exists_reaches_iff {limit : Nat} {m₀ : Memory L} {log : List Event}
    (hnew : Memory.allocate L limit = (.ok m₀, log)) :
    (∀ (bytes : List UInt8) (codeLen : Nat),
      (∃ m, m₀.Reaches m ∧ m.bytes.toList = bytes ∧ m.codeLen = codeLen) ↔
        bytes.length = L.ram ∧ codeLen ≤ L.capacity ∧
          ∀ a, 256 ≤ a → a < L.stack → bytes[a]? = some 0) ∧
    ∀ m, m₀.Reaches m → L.stack + m.codeLen ≤ L.ram := by
  obtain rfl := Memory.eq_zeroed_of_allocate hnew
  have hram := L.stack_add_capacity
  have hstack := L.stack_le_ram
  refine ⟨?_, ?_⟩
  · intro bytes codeLen
    constructor
    · rintro ⟨m, hreaches, rfl, rfl⟩
      have hm := hreaches.attainable (Memory.attainable_zeroed L)
      refine ⟨Vector.length_toList, hm.codeLen_le, ?_⟩
      intro a hfar ha
      have hlt : a < m.bytes.toList.length := by
        rw [Vector.length_toList]
        omega
      rw [List.getElem?_eq_getElem hlt, Vector.getElem_toList, hm.far a (by omega) hfar ha]
    · rintro ⟨hlength, hfits, hfar⟩
      -- the bytes make up an attainable memory, and every attainable memory is rebuilt
      let m : Memory L := ⟨⟨bytes.toArray, by rw [List.size_toArray, hlength]⟩, codeLen⟩
      have hm : m.Attainable := by
        refine ⟨hfits, ?_⟩
        intro a h hlow ha
        have hget := hfar a hlow ha
        rw [List.getElem?_eq_getElem (by omega), Option.some_inj] at hget
        exact hget
      refine ⟨m, ?_, rfl, rfl⟩
      rw [← Memory.after_rebuilding hm]
      exact Memory.Reaches.start.after m.rebuilding
  · intro m hreaches
    have hfits := (hreaches.attainable (Memory.attainable_zeroed L)).codeLen_le
    omega

/-- The stack region ends two bytes beyond the addresses that a byte can name: those two bytes
stay zero, and every other byte and a code length of one are reached. -/
theorem exists_reaches_with_far_stack :
    let L : Layout := { ram := 260, stack := 258 }
    let m₀ := Memory.zeroed L
    Memory.allocate L 260 = (.ok m₀, [.allocated 260 258]) ∧
      (∃ m, m₀.Reaches m ∧ m.bytes.toList = List.replicate 256 9 ++ [0, 0, 1, 2] ∧
        m.codeLen = 1) ∧
      ¬∃ m, m₀.Reaches m ∧ m.bytes.toList = List.replicate 257 9 ++ [0, 1, 2] ∧
        m.codeLen = 1 := by
  intro L m₀
  have hnew : Memory.allocate L 260 = (.ok m₀, [.allocated 260 258]) := rfl
  obtain ⟨hiff, -⟩ := exists_reaches_iff hnew
  have hstack : L.stack = 258 := rfl
  have hnear : (List.replicate 256 (9 : UInt8)).length = 256 := List.length_replicate
  have hover : (List.replicate 257 (9 : UInt8)).length = 257 := List.length_replicate
  refine ⟨hnew, (hiff _ _).mpr ⟨?_, by decide, ?_⟩, ?_⟩
  · rw [List.length_append, hnear]
    rfl
  · intro a hfar ha
    rw [List.getElem?_append_right (by omega), hnear]
    obtain rfl | rfl : a = 256 ∨ a = 257 := by omega
    · rfl
    · rfl
  · intro hreached
    have hzero := ((hiff _ _).mp hreached).2.2 256 (by omega) (by omega)
    rw [List.getElem?_append_left (by omega), List.getElem?_replicate, if_pos (by omega)] at hzero
    cases hzero

end FlatMemory
