import FlatMemory.Proofs.Committed
import FlatMemory.Proofs.Endless
import FlatMemory.Proofs.Windows

/-!
# Stores and loads in either order

What a load reads, answers and reports does not depend on the memory into which it loads.  So a
store and a load, or two loads, can be done in either order with the same answers, and the order
shows in the memory only where both of them write.

## Main definitions

* `LoadReport.Agrees` — two loads that differ in their memories only.
* `Exchange` — what both orders of a store and a load have in common, and where they differ.
* `Covering` — what is left of a load under another one.

## Main results

* `Memory.agrees_of_loadFrom` — the ending of a load is that of all memories.
* `Memory.commit_stored_eq_iff` — when a store can be exchanged with the commit of a program.
* `Memory.commit_commit_eq_iff` — when nothing is left of a program under another one.
* `exchange_store_load` — **a store and a load in either order, and two loads.**
-/

namespace FlatMemory

universe u v

variable {σ : Type u} {φ : Type v} {L : Layout}

/-! ### One load and many memories -/

/-- Two loads read the same and answer and report the same; only the memories that they leave
behind can be different. -/
structure LoadReport.Agrees (r r' : LoadReport L (Stream' Reading)) : Prop where
  outcome : r.outcome = r'.outcome
  log : r.log = r'.log
  rest : r.rest = r'.rest
  tally : r.tally = r'.tally

namespace Memory

theorem outcome_conclude (m m' : Memory L) (e : Ending) :
    (m.conclude e).outcome = (m'.conclude e).outcome := by
  cases e <;> rfl

theorem log_conclude (m m' : Memory L) (e : Ending) :
    (m.conclude e).log = (m'.conclude e).log := by
  cases e <;> rfl

theorem memory_conclude_of_not_commits (m : Memory L) {e : Ending} (h : ¬e.Commits) :
    (m.conclude e).memory = m := by
  cases e with
  | complete code => exact absurd trivial h
  | truncated code => exact absurd trivial h
  | broken cause => rfl
  | overrun index => rfl

/-- The ending of a load is that of all memories.  Loads from the same readings into two
memories agree.  Either both commit the same code, or both leave their memories as they were. -/
theorem agrees_of_loadFrom {m m' : Memory L} {rs : Stream' Reading}
    {r r' : LoadReport L (Stream' Reading)} (h : m.loadFrom rs = some r)
    (h' : m'.loadFrom rs = some r') :
    r'.Agrees r ∧
      (r.Commits → r.memory = m.commit r.memory.code.toArray ∧
        r'.memory = m'.commit r.memory.code.toArray) ∧
      (¬r.Commits → r.memory = m ∧ r'.memory = m') := by
  obtain ⟨before, filled, last, e, hrs, hcourse, hconclusion, htally⟩ :=
    exists_course_of_loadFrom h
  -- the readings that decided the one load decide the other
  rw [hrs, m'.loadFrom_of_course hcourse, ← htally] at h'
  obtain rfl := Option.some.inj h'
  have houtcome : r.outcome = (m.conclude e).outcome := congrArg Conclusion.outcome hconclusion
  have hlog : r.log = (m.conclude e).log := congrArg Conclusion.log hconclusion
  have hmemory : r.memory = (m.conclude e).memory := congrArg Conclusion.memory hconclusion
  have hiff : r.Commits ↔ e.Commits := by
    rw [hconclusion, m.commits_conclude_iff]
  refine ⟨⟨?_, ?_, rfl, rfl⟩, ?_, ?_⟩
  · rw [houtcome]
    exact m'.outcome_conclude m e
  · rw [hlog]
    exact m'.log_conclude m e
  · intro hcommits
    have he := hiff.mp hcommits
    rw [m.memory_conclude he] at hmemory
    have hcode : r.memory.code = e.code := by
      rw [hmemory, m.code_commit hcourse.length_code_le]
    rw [hcode]
    exact ⟨hmemory, m'.memory_conclude he⟩
  · intro hcommits
    have he := mt hiff.mpr hcommits
    rw [m.memory_conclude_of_not_commits he] at hmemory
    exact ⟨hmemory, m'.memory_conclude_of_not_commits he⟩

theorem loadFrom_eq_none_congr (m m' : Memory L) (rs : Stream' Reading) :
    m.loadFrom rs = none ↔ m'.loadFrom rs = none := by
  rw [loadFrom_eq_none_iff, loadFrom_eq_none_iff]

end Memory

/-! ### A store and a program -/

namespace Layout

theorem codeAt?_stack_add (L : Layout) (i : Nat) (code : List UInt8) :
    L.codeAt? (L.stack + i) code = code[i]? := by
  unfold codeAt?
  rw [if_pos (Nat.le_add_right _ _), Nat.add_sub_cancel_left]

theorem codeAt?_eq_none_iff (L : Layout) (a : Nat) (code : List UInt8) :
    L.codeAt? a code = none ↔ ¬(L.stack ≤ a ∧ a < L.stack + code.length) := by
  unfold codeAt?
  by_cases h : L.stack ≤ a
  · rw [if_pos h, List.getElem?_eq_none_iff]
    omega
  · simp [h]

end Layout

namespace Memory

variable (m : Memory L) (addr value : UInt8) (code : List UInt8)

theorem getElem_commit_stored {a : Nat} (h : a < L.ram) :
    ((m.stored addr value).commit code.toArray).bytes[a] =
      (L.codeAt? a code).getD (if addr.toNat = a then value else m.bytes[a]) := by
  rw [getElem_commit_eq _ _ h, getElem_stored _ _ _ h]

theorem getElem_stored_commit {a : Nat} (h : a < L.ram) :
    ((m.commit code.toArray).stored addr value).bytes[a] =
      if addr.toNat = a then value else (L.codeAt? a code).getD m.bytes[a] := by
  rw [getElem_stored _ _ _ h, getElem_commit_eq _ _ h]

theorem getElem_commit_stored_of_ne {a : Nat} (h : a < L.ram) (hne : addr.toNat ≠ a) :
    ((m.stored addr value).commit code.toArray).bytes[a] =
      ((m.commit code.toArray).stored addr value).bytes[a] := by
  rw [getElem_commit_stored, getElem_stored_commit, if_neg hne, if_neg hne]

/-- **A store can be exchanged with the commit of a program** if and only if it is beyond the
memory, lies outside the program, or stores the byte of the program. -/
theorem commit_stored_eq_iff :
    (m.stored addr value).commit code.toArray = (m.commit code.toArray).stored addr value ↔
      L.ram ≤ addr.toNat ∨ ¬(L.stack ≤ addr.toNat ∧ addr.toNat < L.stack + code.length) ∨
        code[addr.toNat - L.stack]? = some value := by
  constructor
  · intro heq
    by_cases hram : addr.toNat < L.ram
    · by_cases hcode : L.stack ≤ addr.toNat ∧ addr.toNat < L.stack + code.length
      · -- the byte at the address is that of the program, and that of the store
        obtain ⟨i, hi⟩ := Nat.exists_eq_add_of_le hcode.1
        have hlt : i < code.length := by omega
        have hbyte := m.getElem_commit_stored addr value code hram
        simp only [heq, getElem_stored_commit, hi, if_pos, Layout.codeAt?_stack_add,
          List.getElem?_eq_getElem hlt, Option.getD_some] at hbyte
        refine .inr (.inr ?_)
        rw [hi, Nat.add_sub_cancel_left, List.getElem?_eq_getElem hlt, hbyte]
      · exact .inr (.inl hcode)
    · exact .inl (Nat.le_of_not_lt hram)
  · intro h
    refine eq_of_getElem rfl ?_
    intro a ha
    -- only at the address of the store can the two orders differ
    by_cases heq : addr.toNat = a
    · subst heq
      rw [getElem_commit_stored, getElem_stored_commit, if_pos rfl, if_pos rfl]
      rcases h with hram | hout | hsame
      · omega
      · rw [(L.codeAt?_eq_none_iff _ code).mpr hout, Option.getD_none]
      · unfold Layout.codeAt?
        rw [hsame]
        split <;> rfl
    · exact m.getElem_commit_stored_of_ne addr value code ha heq

end Memory

/-! ### Two programs -/

namespace Memory

/-- Nothing is left of a program under another one if and only if what the other one does not
cover of it was there before. -/
theorem commit_commit_eq_iff (m : Memory L) {code code' : List UInt8}
    (fits : code.length ≤ L.capacity) :
    (m.commit code.toArray).commit code'.toArray = m.commit code'.toArray ↔
      ∀ (i : Nat) (h : i < code.length), code'.length ≤ i →
        m.bytes[L.stack + i]? = some code[i] := by
  have hram := L.stack_add_capacity
  constructor
  · intro heq i hi hcovered
    have ha : L.stack + i < L.ram := by omega
    have hbyte := (m.commit code.toArray).getElem_commit_eq code'.toArray ha
    simp only [heq, getElem_commit_eq, Layout.codeAt?_stack_add, List.getElem?_eq_none hcovered,
      List.getElem?_eq_getElem hi, Option.getD_none, Option.getD_some] at hbyte
    rw [Vector.getElem?_eq_getElem ha, hbyte]
  · intro h
    refine eq_of_getElem rfl ?_
    intro a ha
    rw [getElem_commit_eq _ _ ha, getElem_commit_eq _ _ ha, getElem_commit_eq _ _ ha]
    -- elsewhere the first program has written nothing
    by_cases hcode : L.stack ≤ a ∧ a < L.stack + code.length
    · obtain ⟨i, rfl⟩ := Nat.exists_eq_add_of_le hcode.1
      have hi : i < code.length := by omega
      rw [Layout.codeAt?_stack_add, Layout.codeAt?_stack_add]
      by_cases hcovered : i < code'.length
      · rw [List.getElem?_eq_getElem hcovered, Option.getD_some, Option.getD_some]
      · -- what is not covered was there before
        have hbefore := h i hi (Nat.le_of_not_lt hcovered)
        rw [Vector.getElem?_eq_getElem ha, Option.some_inj] at hbefore
        rw [List.getElem?_eq_getElem hi, Option.getD_some, hbefore]
    · rw [(L.codeAt?_eq_none_iff a code).mpr hcode, Option.getD_none]

theorem commit_commit_of_length_le (m : Memory L) {code code' : List UInt8}
    (fits : code.length ≤ L.capacity) (h : code.length ≤ code'.length) :
    (m.commit code.toArray).commit code'.toArray = m.commit code'.toArray := by
  rw [m.commit_commit_eq_iff fits]
  intro i hi hcovered
  omega

end Memory

/-! ### Two operations one after the other -/

/-- A store and a load in either order: the answers to the store, `first` before the load and
`last` after it, and the reports of the load, `early` before the store and `late` after it. -/
structure Exchange (addr value : UInt8) (first last : Response L)
    (early late : LoadReport L (Stream' Reading)) : Prop where
  result : first.result = last.result
  log : first.log = last.log
  agrees : late.Agrees early
  codeLen : late.memory.codeLen = last.memory.codeLen
  /-- The memories are the same in the end if and only if the store is beyond the memory, the
  load commits nothing, the store lies outside the code, or it stores the byte of the code. -/
  memory_iff : late.memory = last.memory ↔
    L.ram ≤ addr.toNat ∨ ¬early.Commits ∨
      ¬(L.stack ≤ addr.toNat ∧ addr.toNat < L.stack + early.memory.code.length) ∨
      early.memory.code[addr.toNat - L.stack]? = some value
  /-- In any case they are the same at all other addresses. -/
  elsewhere : ∀ (a : Nat) (h : a < L.ram), a ≠ addr.toNat →
    late.memory.bytes[a] = last.memory.bytes[a]

/-- Two loads that commit, one after the other: the reports of the first load into the memory `m`,
of the second one after it, and of the second one alone. -/
structure Covering (m : Memory L) (first both alone : LoadReport L (Stream' Reading)) :
    Prop where
  agrees : both.Agrees alone
  code : both.memory.code = alone.memory.code
  /-- The memories are the same in the end if and only if what the second load does not cover of
  the first one was there before. -/
  memory_iff : both.memory = alone.memory ↔
    ∀ (i : Nat) (h : i < first.memory.code.length), alone.memory.code.length ≤ i →
      m.bytes[L.stack + i]? = some first.memory.code[i]
  covered : first.memory.code.length ≤ alone.memory.code.length → both.memory = alone.memory
  again : first.memory.code = alone.memory.code → both.memory = first.memory

namespace Memory

theorem length_code_le (m : Memory L) : m.code.length ≤ L.capacity := by
  have hregion := m.length_codeBytes
  unfold code
  rw [List.length_take]
  omega

/-- A store and a load in either order. -/
theorem exchange_of_loadFrom [Source σ] [Source φ] (openFile : String → Except IoError φ)
    (m : Memory L) (addr value : UInt8) {rs : Stream' Reading}
    {early late : LoadReport L (Stream' Reading)} (hearly : m.loadFrom rs = some early)
    (hlate : (m.stored addr value).loadFrom rs = some late) :
    Exchange addr value ((Operation.store addr value : Operation σ).perform openFile m)
      ((Operation.store addr value : Operation σ).perform openFile early.memory) early late := by
  obtain ⟨hagrees, hcommitted, hkept⟩ := agrees_of_loadFrom hearly hlate
  rw [Operation.perform_store, Operation.perform_store]
  by_cases hcommits : early.Commits
  · -- the load commits its code over the store, or under it
    obtain ⟨hunder, hover⟩ := hcommitted hcommits
    have hlast : early.memory.stored addr value =
        (m.commit early.memory.code.toArray).stored addr value :=
      congrArg (stored · addr value) hunder
    constructor
    case result => rfl
    case log => rfl
    case agrees => exact hagrees
    case codeLen =>
      rw [Response.memory_reply, hover, hlast]
      rfl
    case memory_iff =>
      rw [Response.memory_reply, hover, hlast, commit_stored_eq_iff]
      simp only [hcommits, not_true_eq_false, false_or]
    case elsewhere =>
      intro a h hne
      simp only [Response.memory_reply, hover, hlast]
      exact m.getElem_commit_stored_of_ne addr value _ h (Ne.symm hne)
  · -- the load leaves what the store has left
    obtain ⟨hunder, hover⟩ := hkept hcommits
    constructor
    case result => rfl
    case log => rfl
    case agrees => exact hagrees
    case codeLen => rw [Response.memory_reply, hover, hunder]
    case memory_iff => simp [hover, hunder, hcommits]
    case elsewhere =>
      intro a h _
      simp only [Response.memory_reply, hover, hunder]

/-- A load after another load. -/
theorem covering_of_loadFrom {m : Memory L} {rs rs' : Stream' Reading}
    {first both alone : LoadReport L (Stream' Reading)} (hfirst : m.loadFrom rs = some first)
    (hboth : first.memory.loadFrom rs' = some both) (halone : m.loadFrom rs' = some alone)
    (hcommits : first.Commits) (hcommits' : alone.Commits) : Covering m first both alone := by
  have hfits := first.memory.length_code_le
  have hfits' := alone.memory.length_code_le
  obtain ⟨-, hcommitted, -⟩ := agrees_of_loadFrom hfirst hfirst
  obtain ⟨hagrees, hcommitted', -⟩ := agrees_of_loadFrom halone hboth
  obtain ⟨hunder, -⟩ := hcommitted hcommits
  obtain ⟨hover, hlast⟩ := hcommitted' hcommits'
  generalize hcode : first.memory.code = code at hfits hunder
  generalize hcode' : alone.memory.code = code' at hfits' hover hlast
  -- all three memories are commits into `m`, so that only the two programs matter
  have hboth' : both.memory = (m.commit code.toArray).commit code'.toArray := by
    rw [hlast, hunder]
  constructor
  case agrees => exact hagrees
  case code => rw [hcode', hlast, code_commit _ hfits']
  case memory_iff => rw [hcode, hcode', hboth', hover, m.commit_commit_eq_iff hfits]
  case covered =>
    intro h
    rw [hcode, hcode'] at h
    rw [hboth', hover, m.commit_commit_of_length_le hfits h]
  case again =>
    intro h
    rw [hcode, hcode'] at h
    subst h
    rw [hboth', hunder, m.commit_commit_of_length_le hfits (Nat.le_refl _)]

/-- A load that is repeated answers and reports the same, and changes nothing. -/
theorem exists_loadFrom_again {m : Memory L} {rs : Stream' Reading}
    {first : LoadReport L (Stream' Reading)} (hfirst : m.loadFrom rs = some first) :
    ∃ again, first.memory.loadFrom rs = some again ∧ again.Agrees first ∧
      again.memory = first.memory := by
  cases hagain : first.memory.loadFrom rs with
  | none =>
    rw [loadFrom_eq_none_congr first.memory m, hfirst] at hagain
    cases hagain
  | some again =>
    obtain ⟨hagrees, -, hkept⟩ := agrees_of_loadFrom hfirst hagain
    refine ⟨again, rfl, hagrees, ?_⟩
    by_cases hcommits : first.Commits
    · exact (covering_of_loadFrom hfirst hagain hfirst hcommits hcommits).again rfl
    · exact (hkept hcommits).2

end Memory

/-- **A store and a load in either order, and two loads.**

A load that comes to an end has put its code into the memory, or has left the memory as it was.
Stores and loads can be exchanged: either order gives the same answers, the same events, the same
readings that are left and the same code length, and the memory is the same in the end if and only
if the store and the code do not meet or agree on the byte; if it is not the same, it differs at
the address of the store and nowhere else.  Of two loads that commit, the first one is gone without
a trace if and only if what the second one does not cover of it was in the memory before; and a
load that is repeated changes nothing.  A load from a source is the load from its readings. -/
theorem exchange_store_load [Source σ] [Source φ] (openFile : String → Except IoError φ)
    (m : Memory L) :
    (∀ rs r, m.loadFrom rs = some r →
      (r.Commits → r.memory = m.commit r.memory.code.toArray) ∧ (¬r.Commits → r.memory = m)) ∧
    (∀ (addr value : UInt8) (rs : Stream' Reading),
      let store (m : Memory L) : Response L :=
        (Operation.store addr value : Operation σ).perform openFile m
      ((store m).memory.loadFrom rs = none ↔ m.loadFrom rs = none) ∧
      ∀ early late, m.loadFrom rs = some early → (store m).memory.loadFrom rs = some late →
        Exchange addr value (store m) (store early.memory) early late) ∧
    (∀ rs rs' first, m.loadFrom rs = some first →
      (first.memory.loadFrom rs' = none ↔ m.loadFrom rs' = none) ∧
      ∀ both alone, first.memory.loadFrom rs' = some both → m.loadFrom rs' = some alone →
        first.Commits → alone.Commits → Covering m first both alone) ∧
    (∀ rs first, m.loadFrom rs = some first →
      ∃ again, first.memory.loadFrom rs = some again ∧ again.Agrees first ∧
        again.memory = first.memory) ∧
    ∀ {τ : Type u} [Source τ] (source : τ), m.loadFrom (Source.stream source) =
      some { m.loadCode source with rest := Source.stream (m.loadCode source).rest } := by
  refine ⟨?_, ?_, ?_, fun rs first h => Memory.exists_loadFrom_again h,
    fun source => m.loadFrom_stream source⟩
  · intro rs r h
    obtain ⟨-, hcommitted, hkept⟩ := Memory.agrees_of_loadFrom h h
    exact ⟨fun hcommits => (hcommitted hcommits).1, fun hcommits => (hkept hcommits).1⟩
  · intro addr value rs store
    have hstore : (store m).memory = m.stored addr value := by
      simp only [store, Operation.perform_store, Response.memory_reply]
    rw [hstore]
    refine ⟨Memory.loadFrom_eq_none_congr _ _ rs, ?_⟩
    intro early late hearly hlate
    exact m.exchange_of_loadFrom openFile addr value hearly hlate
  · intro rs rs' first hfirst
    refine ⟨Memory.loadFrom_eq_none_congr _ _ rs', ?_⟩
    intro both alone hboth halone hcommits hcommits'
    exact Memory.covering_of_loadFrom hfirst hboth halone hcommits hcommits'

/-- A store into the middle of the code shows if it comes after the load, unless it stores the
byte that is there; and a shorter program leaves the end of a longer one. -/
theorem exchange_store_load_in_code :
    let L : Layout := { ram := 6, stack := 2 }
    let m : Memory L := ⟨#v[0, 0, 8, 8, 8, 8], 0⟩
    let openFile : String → Except IoError (List Reading) := fun _ => .error (.os .noEntry)
    let store (value : UInt8) (m : Memory L) : Response L :=
      (Operation.store 3 value : Operation (List Reading)).perform openFile m
    let long : List Reading := [.exactly [1, 2, 3]]
    let short : List Reading := [.exactly [4]]
    ((store 9 m).memory.loadCode long).memory ≠ (store 9 (m.loadCode long).memory).memory ∧
      ((store 2 m).memory.loadCode long).memory = (store 2 (m.loadCode long).memory).memory ∧
      ((m.loadCode long).memory.loadCode short).memory ≠ (m.loadCode short).memory ∧
      ((m.loadCode long).memory.loadCode long).memory = (m.loadCode long).memory := by
  intro L m openFile store long short
  have hlong : Course L.capacity .start long [.exactly [1, 2, 3]]
      ⟨#[1, 2, 3], Chunk.zeroed.overwrite [1, 2, 3]⟩ .nothing (.complete #[1, 2, 3]) :=
    ⟨rfl, rfl, rfl⟩
  have hshort : Course L.capacity .start short [.exactly [4]]
      ⟨#[4], Chunk.zeroed.overwrite [4]⟩ .nothing (.complete #[4]) := ⟨rfl, rfl, rfl⟩
  have hcode : (m.loadCode long).memory.code = [1, 2, 3] := by
    rw [hlong.loadCode_eq]
    rfl
  have hcode' : (m.loadCode short).memory.code = [4] := by
    rw [hshort.loadCode_eq]
    rfl
  have hcommits : (m.loadCode long).Commits := by
    rw [hlong.loadCode_eq]
    exact .inl ⟨3, rfl⟩
  have hcommits' : (m.loadCode short).Commits := by
    rw [hshort.loadCode_eq]
    exact .inl ⟨1, rfl⟩
  obtain ⟨-, hexchange, hloads, hagain, hsource⟩ :=
    exchange_store_load (σ := List Reading) openFile m
  have hfirst := hsource long
  have hstore := fun value => ((hexchange 3 value _).2 _ _ hfirst
    ((store value m).memory.loadFrom_stream long)).memory_iff
  obtain ⟨again, hload, -, hsame⟩ := hagain _ _ hfirst
  obtain rfl := Option.some.inj
    (((m.loadCode long).memory.loadFrom_stream long).symm.trans hload)
  refine ⟨?_, (hstore 2).mpr ?_, ?_, hsame⟩
  · -- the store lies in the code, and the byte there is another one
    intro heq
    have hcases : 6 ≤ 3 ∨ ¬(m.loadCode long).Commits ∨
        ¬(2 ≤ 3 ∧ 3 < 2 + (m.loadCode long).memory.code.length) ∨
        (m.loadCode long).memory.code[1]? = some 9 := (hstore 9).mp heq
    rw [hcode] at hcases
    rcases hcases with hbeyond | hnone | hout | hbyte
    · cases Nat.not_lt_of_le hbeyond (by decide)
    · exact hnone hcommits
    · exact hout (by decide)
    · cases hbyte
  · have hbyte : (m.loadCode long).memory.code[1]? = some 2 := by rw [hcode]; rfl
    exact .inr (.inr (.inr hbyte))
  · -- the last byte of the longer program was not there before
    intro hleft
    have hcovering := (hloads _ _ _ hfirst).2 _ _
      ((m.loadCode long).memory.loadFrom_stream short) (hsource short) hcommits hcommits'
    have hbefore : ∀ (i : Nat) (h : i < (m.loadCode long).memory.code.length),
        (m.loadCode short).memory.code.length ≤ i →
          m.bytes[2 + i]? = some (m.loadCode long).memory.code[i] := hcovering.memory_iff.mp hleft
    simp only [hcode, hcode'] at hbefore
    have hlast : some (8 : UInt8) = some 3 := hbefore 2 (by decide) (by decide)
    exact absurd hlast (by decide)

end FlatMemory
