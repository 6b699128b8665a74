import FlatMemory.Proofs.Rounds

/-!
# The mishaps of a load

A load takes the size of the code region, reserves room for as many bytes, goes through the
rounds of its loop, and copies what was staged to the start of the code region.  Each of these
steps asks for operands that fit together, and here each of them is checked.  Because the staged
bytes fit, there is one mishap only.

## Main definitions

* `Layout.codeStretch` — the stretch of the memory that code of some length fills.
* `Memory.commitChecked`, `Memory.concludeChecked` — the commit, and what an ending means, step by
  step.
* `Layout.reserved` — the room for the staged bytes.
* `Memory.loadChecked` — the load, step by step.

## Main results

* `Layout.codeStretch_eq_ok_iff`, `Memory.commitChecked_eq` — code that fits is committed,
  and no other code could be.
* `Memory.loadChecked_eq` — the load, step by step, is the load.
* `Memory.eq_chunkEnd_of_loadChecked` — every mishap is an overrun chunk.
* `loadChecked_eq_loadFrom` — **the only mishap of a load is an overrun chunk.**
-/

namespace FlatMemory

universe u

variable {σ : Type u} {L : Layout}

open Reading (total)

/-! ### The commit -/

/-- The stretch of the code region that code of some length fills: its end is a machine word, and
it lies in the memory and is as long as the code. -/
def Layout.codeStretch (L : Layout) (length : Nat) : Except Mishap Nat := do
  let stop ← Checked.plus L.stack length
  Checked.stretch L.ram L.stack stop

namespace Memory

/-- Copies code to the start of the code region, if it fills a stretch of the memory exactly. -/
def commitChecked (m : Memory L) (code : Array UInt8) : Except Mishap (Memory L) := do
  let target ← L.codeStretch code.size
  if target = code.size then return m.commit code
  else throw (.lengths target code.size)

/-- What an ending means, step by step. -/
def concludeChecked (m : Memory L) : Ending → Except Mishap (Conclusion L)
  | .complete code => do
    let stored ← m.commitChecked code
    return ⟨.ok code.size, stored, [.loaded code.size L.stack]⟩
  | .truncated code => do
    let stored ← m.commitChecked code
    return ⟨.error (.failure (.tooLarge L.capacity)), stored, [.truncated L.capacity]⟩
  | .broken cause => return ⟨.error (.failure (.unavailable cause)), m, []⟩
  | .overrun index => throw (.chunkEnd index)

end Memory

theorem Checked.stretch_of_lt {ram start stop : Nat} (hstart : start ≤ stop) (hstop : ram < stop) :
    stretch ram start stop = .error (.memoryEnd stop) := by
  unfold stretch
  rw [if_neg (Nat.not_lt.mpr hstart), if_pos hstop]

/-- Code fills a stretch of the memory if and only if it fits in the code region. -/
theorem Layout.codeStretch_eq_ok_iff (L : Layout) {length : Nat} :
    L.codeStretch length = .ok length ↔ length ≤ L.capacity := by
  have hram := L.stack_add_capacity
  have hword := L.ram_lt
  rcases Nat.lt_or_ge L.capacity length with hlong | hfits
  · -- code that does not fit ends outside the memory, if its end is a machine word at all
    have hnot : L.codeStretch length ≠ .ok length := by
      intro h
      unfold codeStretch Checked.plus at h
      split at h
      · have hend : Checked.stretch L.ram L.stack (L.stack + length) = .ok length := h
        rw [Checked.stretch_of_lt (Nat.le_add_right _ _) (by omega)] at hend
        cases hend
      · cases h
    exact iff_of_false hnot (Nat.not_le.mpr hlong)
  · have hfills : L.codeStretch length = .ok length := by
      rw [codeStretch, Checked.plus_of_lt (by omega)]
      show Checked.stretch L.ram L.stack (L.stack + length) = _
      rw [Checked.stretch_of_le (Nat.le_add_right _ _) (by omega), Nat.add_sub_cancel_left]
    exact iff_of_true hfills hfits

namespace Memory

theorem commitChecked_eq (m : Memory L) {code : Array UInt8} (fits : code.size ≤ L.capacity) :
    m.commitChecked code = .ok (m.commit code) := by
  rw [commitChecked, L.codeStretch_eq_ok_iff.mpr fits]
  exact if_pos rfl

theorem concludeChecked_eq (m : Memory L) {e : Ending} (fits : e.code.length ≤ L.capacity) :
    m.concludeChecked e = e.orMishap.map m.conclude := by
  cases e with
  | complete code =>
    rw [concludeChecked, m.commitChecked_eq fits]
    rfl
  | truncated code =>
    rw [concludeChecked, m.commitChecked_eq fits]
    rfl
  | broken cause => rfl
  | overrun index => rfl

end Memory

/-! ### The load -/

/-- The size of the code region, for which as much is reserved. -/
def Layout.reserved (L : Layout) (limit : Nat) : Except Mishap Nat := do
  let capacity ← Checked.minus L.ram L.stack
  Checked.reserve limit capacity
  return capacity

/-- What the end of the loop means, step by step. -/
def Memory.reportChecked (m : Memory L) (f : Finish (Stream' Reading)) :
    Except Mishap (LoadReport L (Stream' Reading)) := do
  let conclusion ← m.concludeChecked f.ending
  return { conclusion with rest := f.rest, tally := f.tally }

/-- Loads a program from readings without end, step by step.  There is no result if the load
neither comes to an end nor to a step that cannot be carried out. -/
noncomputable def Memory.loadChecked (limit : Nat) (m : Memory L) (rs : Stream' Reading) :
    Option (Except Mishap (LoadReport L (Stream' Reading))) :=
  match L.reserved limit with
  | .error mishap => some (.error mishap)
  | .ok capacity =>
    (collectChecked capacity .start .zero rs).map fun result => result.bind m.reportChecked

/-- The report of a load in which every step was carried out. -/
def LoadReport.orMishap (r : LoadReport L σ) : Except Mishap (LoadReport L σ) :=
  match r.outcome with
  | .error (.overrun index) => .error (.chunkEnd index)
  | _ => .ok r

/-- As much can be reserved as the code region holds if a whole memory can be. -/
theorem Layout.reserved_of_le {limit : Nat} (h : L.ram ≤ limit) :
    L.reserved limit = .ok L.capacity := by
  have hcapacity : L.capacity ≤ limit := Nat.le_trans (Nat.sub_le _ _) h
  rw [reserved, Checked.minus_of_le L.stack_le_ram]
  show (do Checked.reserve limit L.capacity; return L.capacity) = _
  rw [Checked.reserve_of_le hcapacity]
  rfl

namespace Memory

theorem bind_reportChecked (m : Memory L) {f : Finish (Stream' Reading)}
    (fits : f.ending.code.length ≤ L.capacity) :
    f.orMishap.bind m.reportChecked =
      LoadReport.orMishap { m.conclude f.ending with rest := f.rest, tally := f.tally } := by
  obtain ⟨ending, rest, tally⟩ := f
  have hconclude : m.concludeChecked ending = _ := m.concludeChecked_eq fits
  cases ending with
  | complete code =>
    show m.reportChecked ⟨.complete code, rest, tally⟩ = _
    rw [reportChecked, hconclude]
    rfl
  | truncated code =>
    show m.reportChecked ⟨.truncated code, rest, tally⟩ = _
    rw [reportChecked, hconclude]
    rfl
  | broken cause => rfl
  | overrun index => rfl

/-- The load, step by step, is the load, where an overrun chunk is a mishap. -/
theorem loadChecked_eq {limit : Nat} (h : L.ram ≤ limit) (m : Memory L) (rs : Stream' Reading) :
    m.loadChecked limit rs = (m.loadFrom rs).map LoadReport.orMishap := by
  unfold loadChecked loadFrom
  rw [Layout.reserved_of_le h]
  show Option.map _ (collectChecked L.capacity .start .zero rs) = _
  rw [collectChecked_eq (Nat.zero_le _), Option.map_map, Option.map_map]
  cases hf : collectFrom L.capacity .start .zero rs with
  | none => rfl
  | some f =>
    obtain ⟨before, filled, last, -, hcourse, -⟩ := collectFrom_eq_some_iff.mp hf
    exact congrArg some (m.bind_reportChecked hcourse.length_code_le)

/-- A mishap of a load is that its chunk is overrun. -/
theorem eq_chunkEnd_of_loadChecked {limit : Nat} (h : L.ram ≤ limit) {m : Memory L}
    {rs : Stream' Reading} {mishap : Mishap}
    (hload : m.loadChecked limit rs = some (.error mishap)) :
    ∃ index, mishap = .chunkEnd index ∧ chunkSize < index := by
  rw [m.loadChecked_eq h] at hload
  obtain ⟨report, hreport, hmishap⟩ := Option.map_eq_some_iff.mp hload
  obtain ⟨before, filled, last, ending, -, hcourse, hconclusion, -⟩ :=
    exists_course_of_loadFrom hreport
  unfold LoadReport.orMishap at hmishap
  split at hmishap
  · rename_i index houtcome
    rw [hconclusion, m.conclude_eq_overrun_iff] at houtcome
    subst houtcome
    exact ⟨index, (Except.error.inj hmishap).symm, Staging.lt_of_absorb_overrun hcourse.ended⟩
  · cases hmishap

end Memory

/-- **The only mishap of a load is an overrun chunk.**  Let the bytes of memories of a layout be
few enough to be reserved, and let a load into such a memory read any sequence of readings.  Its
loop begins as many rounds as the load reads, and goes on for ever if the load does.  With what is
staged at the beginning of a round the loop goes on behind the readings of the earlier rounds.  It
is as many bytes as these readings reported together, it fits in the code region, and each of them
was interrupted or reported between one and sixty-four bytes.  Code that the loop hands on to be
committed fits as well, also if it was cut, and from the start of the code region on it fills a
stretch of the memory that is exactly as long.  So the load in which every step is checked is the
load itself, and the only step that cannot be carried out is to cut off more from the chunk than
it holds.  On the readings of a source this is the load from the source. -/
theorem loadChecked_eq_loadFrom {limit : Nat} {m₀ : Memory L} {log : List Event}
    (hnew : Memory.allocate L limit = (.ok m₀, log)) (m : Memory L) (rs : Stream' Reading) :
    (∀ n, (∃ s, Staging.AtRound L.capacity rs n s) ↔
      ∀ report, m.loadFrom rs = some report → n < report.tally.reads) ∧
    (∀ n s, Staging.AtRound L.capacity rs n s →
      collectFrom L.capacity .start .zero rs =
          collectFrom L.capacity s (Tally.zero.addAll (rs.take n)) (rs.drop n) ∧
        s.staged.size = total (rs.take n) ∧ s.staged.size ≤ L.capacity ∧
        ∀ r ∈ rs.take n, r.isInterrupted = true ∨ (1 ≤ r.count ∧ r.count ≤ chunkSize)) ∧
    (∀ n s e, Staging.AtRound L.capacity rs n s →
      s.absorbChecked L.capacity (rs.get n) = .ok (.error e) → e.Commits →
        e.code.length ≤ L.capacity ∧ L.stack + e.code.length ≤ L.ram ∧
          L.codeStretch e.code.length = .ok e.code.length) ∧
    m.loadChecked limit rs = (m.loadFrom rs).map LoadReport.orMishap ∧
    (∀ mishap, m.loadChecked limit rs = some (.error mishap) →
      ∃ index, mishap = .chunkEnd index ∧ chunkSize < index) ∧
    ∀ {σ : Type u} [Source σ] (source : σ), m.loadChecked limit (Source.stream source) =
      some (LoadReport.orMishap
        { m.loadCode source with rest := Source.stream (m.loadCode source).rest }) := by
  have hlimit := Memory.ram_le_of_allocate hnew
  have hram := L.stack_add_capacity
  refine ⟨m.exists_atRound_iff rs, ?_, ?_, m.loadChecked_eq hlimit rs,
    fun mishap => Memory.eq_chunkEnd_of_loadChecked hlimit, ?_⟩
  · intro n s hround
    have htracks := hround.tracks
    exact ⟨hround.collectFrom_eq .zero, htracks.size, htracks.size_le,
      fun r hr => htracks.isInterrupted_or_count hr⟩
  · intro n s e hround hstep _
    have hfits := hround.length_code_le hstep
    exact ⟨hfits, by omega, L.codeStretch_eq_ok_iff.mpr hfits⟩
  · intro σ _ source
    rw [m.loadChecked_eq hlimit, m.loadFrom_stream, Option.map_some]

/-- With room for sixty-eight bytes and two of them staged, a report of three hundred would take
sixty-six from the chunk; with sixty-four staged it takes four and fills the code region. -/
theorem loadChecked_eq_loadFrom_of_report :
    let L : Layout := { ram := 70, stack := 2 }
    let m := Memory.zeroed L
    let interrupted := Reading.failed (.plain .interrupted)
    let rs := [.exactly [1, 2], interrupted, .got 300 [7]] ++ₛ Stream'.const interrupted
    let rs' := [.got 64 [9], .got 300 [7]] ++ₛ Stream'.const interrupted
    Memory.allocate L 70 = (.ok m, [.allocated 70 2]) ∧
      (∃ s, Staging.AtRound L.capacity rs 2 s ∧ s.staged.size = 2) ∧
      (m.loadChecked 70 rs = some (.error (.chunkEnd 66)) ∧ chunkSize < 66) ∧
      ∃ s e, Staging.AtRound L.capacity rs' 1 s ∧
        s.absorbChecked L.capacity (rs'.get 1) = .ok (.error e) ∧ e.Commits ∧
        e.code.length = 68 ∧ L.codeStretch e.code.length = .ok e.code.length := by
  intro L m interrupted rs rs'
  have hnew : Memory.allocate L 70 = (.ok m, [.allocated 70 2]) := rfl
  obtain ⟨hrounds, hinvariant, -, hload, honly, -⟩ := loadChecked_eq_loadFrom.{0} hnew m rs
  obtain ⟨-, -, hcommit, -⟩ := loadChecked_eq_loadFrom.{0} hnew m rs'
  -- the load that overruns the chunk with its third reading
  let before := [.exactly [1, 2], interrupted]
  have hcourse : Course L.capacity .start (before ++ [.got 300 [7]]) before
      ⟨#[1, 2], Chunk.zeroed.overwrite [1, 2]⟩ (.got 300 [7]) (.overrun 66) := ⟨rfl, rfl, rfl⟩
  have hreport := m.loadFrom_of_course hcourse (Stream'.const interrupted)
  have hmishap : m.loadChecked 70 rs = some (.error (.chunkEnd 66)) := by
    rw [hload]
    exact congrArg (Option.map LoadReport.orMishap) hreport
  obtain ⟨index, hindex, hchunk⟩ := honly _ hmishap
  obtain ⟨s, hs⟩ := (hrounds 2).mpr fun report h => by
    obtain rfl := Option.some.inj (hreport.symm.trans h)
    decide
  have hsize : s.staged.size = 2 := (hinvariant 2 s hs).2.1
  -- the load that is cut by its second reading
  have hfirst : Staging.start.absorbChecked L.capacity (.got 64 [9]) = .ok (.ok _) :=
    Staging.absorbChecked_taken (Nat.zero_le _) [9] (by decide) (by decide) (by decide)
  have hround : Staging.AtRound L.capacity rs' 1 _ := .next .first hfirst
  obtain ⟨s', hs'⟩ : ∃ s', Staging.AtRound L.capacity rs' 1 s' := ⟨_, hround⟩
  have hsize' : s'.staged.size = 64 := hs'.tracks.size
  have hroom : s'.room L.capacity = 4 := by
    unfold Staging.room
    rw [hsize']
    rfl
  have hcut := Staging.absorbChecked_truncated (n := 300) hs'.tracks.size_le [7]
    (by rw [hroom]; decide) (by rw [hroom]; decide)
  refine ⟨hnew, ⟨s, hs, hsize⟩, ⟨hmishap, ?_⟩, s', _, hs', hcut, trivial, ?_,
    (hcommit 1 s' _ hs' hcut trivial).2.2⟩
  · rw [Mishap.chunkEnd.inj hindex]
    exact hchunk
  · rw [hroom]
    simp [Ending.code, hsize', chunkSize]

end FlatMemory
