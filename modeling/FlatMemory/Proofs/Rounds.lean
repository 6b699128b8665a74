import FlatMemory.Proofs.Committed
import FlatMemory.Proofs.Endless

/-!
# The rounds of a load, step by step

Some steps of a load make sense only where their operands fit together: a size is taken from
another one, the front of a chunk is cut off, and bytes are added to those for which room was
reserved.  The definitions give each of these steps some result in any case.  Here the rounds of
the loop are carried out once more, step by step and in the order of the steps, and a step whose
operands do not fit ends the loop with a mishap.  It is the same loop: what is staged at the
beginning of a round always fits in the code region, and then nothing can go wrong in the round
but that a source reports more bytes than the chunk holds.

## Main definitions

* `Mishap` — a step that cannot be carried out.
* `Checked.minus`, `Checked.plus`, `Checked.reserve`, `Checked.front`, `Checked.append`,
  `Checked.stage`, `Checked.stretch` — the steps.
* `Staging.absorbChecked`, `collectChecked` — one reading, and the loop, step by step.
* `Staging.AtRound` — the loop begins a round with some staging.

## Main results

* `Staging.absorbChecked_eq` — a round: if the staged bytes fit, every step can be carried
  out, or the chunk is overrun.
* `Staging.AtRound.tracks` — the invariant at the beginning of every round.
* `Staging.AtRound.length_code_le` — code with which the loop ends fits.
* `Memory.exists_atRound_iff` — a load has as many rounds as reads.
* `collectChecked_eq` — the loop, step by step, is the loop.
-/

namespace FlatMemory

universe u

variable {σ : Type u} {L : Layout} {capacity : Nat}

/-! ### Steps that can go wrong -/

/-- A step of a load that cannot be carried out. -/
inductive Mishap
  | underflow (size taken : Nat)
  | overflow (size added : Nat)
  | unreservable (size : Nat)
  /-- More bytes are cut off from the chunk than it holds. -/
  | chunkEnd (index : Nat)
  /-- More bytes are staged than were reserved. -/
  | outgrown (size reserved : Nat)
  /-- A stretch of the memory begins after its end. -/
  | reversed (start stop : Nat)
  | memoryEnd (index : Nat)
  /-- Code is copied to a stretch that is longer or shorter. -/
  | lengths (target source : Nat)
  deriving DecidableEq, Repr

namespace Checked

def minus (size taken : Nat) : Except Mishap Nat :=
  if taken ≤ size then .ok (size - taken) else .error (.underflow size taken)

def plus (size added : Nat) : Except Mishap Nat :=
  if size + added < UInt64.size then .ok (size + added) else .error (.overflow size added)

/-- Reserves bytes, if there are at most `limit` of them. -/
def reserve (limit size : Nat) : Except Mishap Unit :=
  if size ≤ limit then .ok () else .error (.unreservable size)

/-- Cuts the first `n` bytes off from a chunk. -/
def front (chunk : Chunk) (n : Nat) : Except Mishap (Array UInt8) :=
  if n ≤ chunkSize then .ok (chunk.front n) else .error (.chunkEnd n)

/-- Puts bytes behind others, where `reserved` bytes have room. -/
def append (reserved : Nat) (staged added : Array UInt8) : Except Mishap (Array UInt8) :=
  if staged.size + added.size ≤ reserved then .ok (staged ++ added)
  else .error (.outgrown (staged.size + added.size) reserved)

/-- Puts the first `n` bytes of a chunk behind others. -/
def stage (reserved : Nat) (staged : Array UInt8) (chunk : Chunk) (n : Nat) :
    Except Mishap (Array UInt8) := do
  let added ← front chunk n
  append reserved staged added

/-- The length of the stretch from `start` up to, and without, `stop` in a memory of `ram`
bytes. -/
def stretch (ram start stop : Nat) : Except Mishap Nat :=
  if stop < start then .error (.reversed start stop)
  else if ram < stop then .error (.memoryEnd stop)
  else .ok (stop - start)

theorem minus_of_le {size taken : Nat} (h : taken ≤ size) :
    minus size taken = .ok (size - taken) := if_pos h

theorem plus_of_lt {size added : Nat} (h : size + added < UInt64.size) :
    plus size added = .ok (size + added) := if_pos h

theorem reserve_of_le {limit size : Nat} (h : size ≤ limit) : reserve limit size = .ok () :=
  if_pos h

theorem front_of_le {n : Nat} (chunk : Chunk) (h : n ≤ chunkSize) :
    front chunk n = .ok (chunk.front n) := if_pos h

theorem front_of_lt {n : Nat} (chunk : Chunk) (h : chunkSize < n) :
    front chunk n = .error (.chunkEnd n) := if_neg (Nat.not_le.mpr h)

theorem append_of_le {reserved : Nat} {staged added : Array UInt8}
    (h : staged.size + added.size ≤ reserved) :
    append reserved staged added = .ok (staged ++ added) := if_pos h

theorem stage_of_le {reserved n : Nat} {staged : Array UInt8} (chunk : Chunk)
    (hchunk : n ≤ chunkSize) (hroom : staged.size + n ≤ reserved) :
    stage reserved staged chunk n = .ok (staged ++ chunk.front n) := by
  have hsize : staged.size + (chunk.front n).size ≤ reserved := by
    rw [Chunk.size_front, Nat.min_eq_left hchunk]
    exact hroom
  rw [stage, front_of_le chunk hchunk]
  exact append_of_le hsize

theorem stage_of_lt {n : Nat} (reserved : Nat) (staged : Array UInt8) (chunk : Chunk)
    (h : chunkSize < n) : stage reserved staged chunk n = .error (.chunkEnd n) := by
  rw [stage, front_of_lt chunk h]
  rfl

theorem stretch_of_le {ram start stop : Nat} (hstart : start ≤ stop) (hstop : stop ≤ ram) :
    stretch ram start stop = .ok (stop - start) := by
  unfold stretch
  rw [if_neg (Nat.not_lt.mpr hstart), if_neg (Nat.not_lt.mpr hstop)]

end Checked

/-! ### One round of the loop -/

/-- An ending to which every step led; that the chunk is overrun is a mishap. -/
def Ending.orMishap : Ending → Except Mishap Ending
  | .overrun index => .error (.chunkEnd index)
  | ending => .ok ending

namespace Staging

/-- One reading, step by step: first the room that is left, then the front of the chunk, which is
cut to the room if the report is longer. -/
def absorbChecked (capacity : Nat) (s : Staging) : Reading → Except Mishap (Except Ending Staging)
  | .failed cause => .ok (if cause.isInterrupted then .ok s else .error (.broken cause))
  | .got count written =>
    if count = 0 then .ok (.error (.complete s.staged))
    else do
      let chunk := s.chunk.overwrite written
      let room ← Checked.minus capacity s.staged.size
      if room < count then
        let staged ← Checked.stage capacity s.staged chunk room
        return .error (.truncated staged)
      else
        let staged ← Checked.stage capacity s.staged chunk count
        return .ok ⟨staged, chunk⟩

/-- What a reading does to the staging, where an overrun chunk is a mishap. -/
def orMishap : Except Ending Staging → Except Mishap (Except Ending Staging)
  | .error ending => ending.orMishap.map .error
  | .ok s => .ok (.ok s)

section Report

variable {s : Staging} {n : Nat}

/-- The room that is left is a size, if the staged bytes fit. -/
theorem absorbChecked_got (fits : s.staged.size ≤ capacity) (w : List UInt8) (hpos : 1 ≤ n) :
    s.absorbChecked capacity (.got n w) =
      if s.room capacity < n then
        (Checked.stage capacity s.staged (s.chunk.overwrite w) (s.room capacity)).map
          fun staged => .error (.truncated staged)
      else
        (Checked.stage capacity s.staged (s.chunk.overwrite w) n).map
          fun staged => .ok ⟨staged, s.chunk.overwrite w⟩ := by
  have hn : ¬n = 0 := by omega
  have hroom : Checked.minus capacity s.staged.size = .ok (s.room capacity) :=
    Checked.minus_of_le fits
  simp only [absorbChecked, if_neg hn, hroom]
  rfl

theorem absorbChecked_overrun (fits : s.staged.size ≤ capacity) (w : List UInt8)
    (h : chunkSize < min n (s.room capacity)) :
    s.absorbChecked capacity (.got n w) = .error (.chunkEnd (min n (s.room capacity))) := by
  rw [absorbChecked_got fits w (by omega)]
  rcases Nat.lt_or_ge (s.room capacity) n with hcut | hall
  · rw [Nat.min_eq_right (Nat.le_of_lt hcut)] at h ⊢
    rw [if_pos hcut, Checked.stage_of_lt _ _ _ h]
    rfl
  · rw [Nat.min_eq_left hall] at h ⊢
    rw [if_neg (Nat.not_lt.mpr hall), Checked.stage_of_lt _ _ _ h]
    rfl

theorem absorbChecked_truncated (fits : s.staged.size ≤ capacity) (w : List UInt8)
    (hroom : s.room capacity < n) (hchunk : s.room capacity ≤ chunkSize) :
    s.absorbChecked capacity (.got n w) =
      .ok (.error (.truncated (s.staged ++ (s.chunk.overwrite w).front (s.room capacity)))) := by
  -- the bytes that are cut off fill what was reserved
  have hfull : s.staged.size + s.room capacity = capacity := Nat.add_sub_of_le fits
  rw [absorbChecked_got fits w (by omega), if_pos hroom,
    Checked.stage_of_le _ hchunk (Nat.le_of_eq hfull)]
  rfl

theorem absorbChecked_taken (fits : s.staged.size ≤ capacity) (w : List UInt8) (hpos : 1 ≤ n)
    (hchunk : n ≤ chunkSize) (hroom : n ≤ s.room capacity) :
    s.absorbChecked capacity (.got n w) =
      .ok (.ok ⟨s.staged ++ (s.chunk.overwrite w).front n, s.chunk.overwrite w⟩) := by
  have hfull : s.staged.size + s.room capacity = capacity := Nat.add_sub_of_le fits
  rw [absorbChecked_got fits w hpos, if_neg (Nat.not_lt.mpr hroom),
    Checked.stage_of_le _ hchunk (by omega)]
  rfl

end Report

/-- **A round.**  If the staged bytes fit, every step can be carried out, and leads where the
reading leads at once; or the chunk is overrun. -/
theorem absorbChecked_eq {s : Staging} (fits : s.staged.size ≤ capacity) (r : Reading) :
    s.absorbChecked capacity r = orMishap (s.absorb capacity r) := by
  cases r with
  | failed cause =>
    rw [absorb_failed]
    show Except.ok (if cause.isInterrupted then _ else _) = _
    split <;> rfl
  | got n w =>
    rcases Nat.eq_zero_or_pos n with rfl | hpos
    · rfl
    · rcases report_cases capacity s hpos with hover | ⟨hcut, hchunk⟩ | ⟨-, hchunk, hroom⟩
      · rw [absorbChecked_overrun fits w hover, absorb_overrun w hover]
        rfl
      · rw [absorbChecked_truncated fits w hcut hchunk, absorb_truncated w hcut hchunk]
        rfl
      · rw [absorbChecked_taken fits w hpos hchunk hroom, absorb_taken w hpos hchunk hroom]
        rfl

theorem eq_of_orMishap_eq_ok {step step' : Except Ending Staging}
    (h : orMishap step = .ok step') : step = step' := by
  cases step with
  | error ending =>
    cases ending with
    | complete code => exact Except.ok.inj h
    | truncated code => exact Except.ok.inj h
    | broken cause => exact Except.ok.inj h
    | overrun index => cases h
  | ok s => exact Except.ok.inj h

theorem absorb_of_absorbChecked {s : Staging} {r : Reading} {step : Except Ending Staging}
    (fits : s.staged.size ≤ capacity) (h : s.absorbChecked capacity r = .ok step) :
    s.absorb capacity r = step := by
  rw [absorbChecked_eq fits] at h
  exact eq_of_orMishap_eq_ok h

theorem absorbChecked_of_absorb {s s' : Staging} {r : Reading} (fits : s.staged.size ≤ capacity)
    (h : s.absorb capacity r = .ok s') : s.absorbChecked capacity r = .ok (.ok s') := by
  rw [absorbChecked_eq fits, h]
  rfl

/-! ### All rounds -/

/-- The loop begins round `n` with the staging `s`.  In each of the rounds before, numbered from
zero on, it carried out every step for one reading of the sequence, and went on. -/
inductive AtRound (capacity : Nat) (rs : Stream' Reading) : Nat → Staging → Prop
  | first : AtRound capacity rs 0 .start
  | next {n : Nat} {s s' : Staging} : AtRound capacity rs n s →
      s.absorbChecked capacity (rs.get n) = .ok (.ok s') → AtRound capacity rs (n + 1) s'

section Rounds

variable {rs : Stream' Reading} {n : Nat} {s : Staging}

/-- The invariant holds at the beginning of every round. -/
theorem AtRound.tracks (h : AtRound capacity rs n s) : s.Tracks capacity (rs.take n) := by
  induction h with
  | first => exact tracks_start capacity
  | next _ hstep ih =>
    rw [Stream'.take_succ']
    exact ih.absorb (absorb_of_absorbChecked ih.size_le hstep)

/-- The rounds absorb one reading after the other. -/
theorem atRound_iff :
    AtRound capacity rs n s ↔ start.absorbAll capacity (rs.take n) = .ok s := by
  constructor
  · intro h
    induction h with
    | first => rfl
    | next hround hstep ih =>
      have hr := absorb_of_absorbChecked hround.tracks.size_le hstep
      rw [Stream'.take_succ', absorbAll_append ih, absorbAll_cons_ok hr, absorbAll_nil]
  · intro h
    induction n generalizing s with
    | zero =>
      obtain rfl : start = s := Except.ok.inj h
      exact .first
    | succ n ih =>
      rw [Stream'.take_succ'] at h
      obtain ⟨s₁, hrs, hlast⟩ := absorbAll_append_eq_ok h
      obtain ⟨s₂, hr, hnil⟩ := absorbAll_cons_eq_ok hlast
      obtain rfl : s₂ = s := Except.ok.inj hnil
      -- by the invariant the staged bytes fit, and then each step of the round can be carried out
      have hround := ih hrs
      exact .next hround (absorbChecked_of_absorb hround.tracks.size_le hr)

theorem AtRound.length_code_le {ending : Ending} (h : AtRound capacity rs n s)
    (hstep : s.absorbChecked capacity (rs.get n) = .ok (.error ending)) :
    ending.code.length ≤ capacity := by
  have hend := absorb_of_absorbChecked h.tracks.size_le hstep
  exact (course_list (atRound_iff.mp h) hend).length_code_le

/-- The load goes on from the staging with which a round begins. -/
theorem AtRound.collectFrom_eq (h : AtRound capacity rs n s) (tally : Tally) :
    collectFrom capacity .start tally rs =
      collectFrom capacity s (tally.addAll (rs.take n)) (rs.drop n) := by
  rw [← collectFrom_append (atRound_iff.mp h), Stream'.append_take_drop]

end Rounds

end Staging

/-- The rounds of a load are as many as its reads, and go on for ever if the load does. -/
theorem Memory.exists_atRound_iff (m : Memory L) (rs : Stream' Reading) (n : Nat) :
    (∃ s, Staging.AtRound L.capacity rs n s) ↔
      ∀ report, m.loadFrom rs = some report → n < report.tally.reads := by
  simp only [Staging.atRound_iff]
  cases hload : m.loadFrom rs with
  | none =>
    have hall := (m.loadFrom_eq_none_iff rs).mp hload n
    exact iff_of_true hall (fun report h => by cases h)
  | some report =>
    obtain ⟨before, filled, last, ending, hrs, hcourse, -, htally⟩ :=
      exists_course_of_loadFrom hload
    have hreads : report.tally.reads = before.length + 1 := by
      rw [htally]
      simp [Tally.addAll, Tally.zero]
    have hasked := take_reads hrs htally
    rw [hreads] at hasked
    rw [hcourse.absorbAll_take_iff hasked, ← Nat.lt_succ_iff, Nat.succ_eq_add_one, ← hreads]
    constructor
    · intro hlt report' h
      rw [← Option.some.inj h]
      exact hlt
    · intro h
      exact h report rfl

/-! ### The loop -/

def Finish.orMishap (f : Finish σ) : Except Mishap (Finish σ) :=
  f.ending.orMishap.map fun ending => { f with ending := ending }

/-- Reads a sequence until the staging ends or a step cannot be carried out, but at most so many
times. -/
def collectCheckedWithin (capacity : Nat) :
    Nat → Staging → Tally → Stream' Reading → Option (Except Mishap (Finish (Stream' Reading)))
  | 0, _, _, _ => none
  | n + 1, s, tally, rs =>
    match s.absorbChecked capacity rs.head with
    | .error mishap => some (.error mishap)
    | .ok (.error ending) => some (.ok ⟨ending, rs.tail, tally.add rs.head⟩)
    | .ok (.ok s') => collectCheckedWithin capacity n s' (tally.add rs.head) rs.tail

/-- Reads a sequence until the staging ends or a step cannot be carried out.  There is no result
if neither happens. -/
noncomputable def collectChecked (capacity : Nat) (s : Staging) (tally : Tally)
    (rs : Stream' Reading) : Option (Except Mishap (Finish (Stream' Reading))) :=
  firstAnswer fun n => collectCheckedWithin capacity n s tally rs

theorem collectCheckedWithin_eq {s : Staging} (fits : s.staged.size ≤ capacity) (n : Nat)
    (tally : Tally) (rs : Stream' Reading) :
    collectCheckedWithin capacity n s tally rs =
      (collectWithin capacity n s tally rs).map Finish.orMishap := by
  induction n generalizing s tally rs with
  | zero => rfl
  | succ n ih =>
    rw [collectCheckedWithin, collectWithin, Staging.absorbChecked_eq fits]
    cases hr : s.absorb capacity rs.head with
    | error ending => cases ending <;> rfl
    | ok s' => exact ih (Staging.size_le_of_absorb fits hr) (tally.add rs.head) rs.tail

/-- The loop, step by step, comes to the same end, where an overrun chunk is a mishap. -/
theorem collectChecked_eq {s : Staging} (fits : s.staged.size ≤ capacity) (tally : Tally)
    (rs : Stream' Reading) :
    collectChecked capacity s tally rs =
      (collectFrom capacity s tally rs).map Finish.orMishap := by
  unfold collectChecked collectFrom
  simp only [collectCheckedWithin_eq fits]
  exact firstAnswer_map _ _

end FlatMemory
