import FlatMemory.Proofs.Endless

/-!
# How loads end

Nothing is asked of a source here: it may report fewer bytes than it wrote, more than it
wrote, or more than the chunk holds.  What becomes of a load is decided reading by reading,
from the reported count and the room that is left.  A load that is interrupted for ever has no
end.

## Main definitions

* `Memory.made` — the readings that a load asked for.
* `Conclusion.DecidedBy` — how those readings decide the end of a load.

## Main results

* `Course.at_reading` — each reading of a load was met in a staging that keeps the
  invariant; only the last one ended the load.
* `Course.at_report` — what a report and the room decide.
* `Memory.conclude_of_failed` — an ending that commits nothing leaves no trace.
* `Memory.loadFrom_outcome`, `loadCode_outcome` — **which readings end a load, and how.**
-/

namespace FlatMemory

universe u

variable {σ : Type u} [Source σ] {L : Layout}

open Reading (total)

/-- The readings that a load asked its source for. -/
def Memory.made (m : Memory L) (source : σ) : List Reading :=
  Source.readings (m.loadCode source).tally.reads source

section Course

variable {capacity : Nat} {source : σ} {before : List Reading} {filled : Staging}
  {last : Reading} {ending : Ending}

theorem Course.made_eq (h : Course L.capacity .start source before filled last ending)
    (m : Memory L) : m.made source = before ++ [last] := by
  have hreads : (m.loadCode source).tally.reads = before.length + 1 := by
    rw [h.loadCode_eq]
    simp [Tally.addAll, Tally.zero]
  unfold Memory.made
  rw [hreads, h.readings]

/-- Every reading of a load was met in a staging to which the earlier ones had led, and
it ended the load if it was the last, and was absorbed otherwise. -/
theorem Course.at_reading (h : Course capacity .start source before filled last ending)
    {earlier later : List Reading} {r : Reading}
    (hsplit : before ++ [last] = earlier ++ r :: later) :
    ∃ s : Staging, s.Tracks capacity earlier ∧
      ((later = [] ∧ s.absorb capacity r = .error ending) ∨
        (later ≠ [] ∧ ∃ s', s.absorb capacity r = .ok s')) := by
  rcases List.eq_nil_or_concat later with rfl | ⟨later', x, rfl⟩
  · obtain ⟨rfl, hr⟩ := List.append_inj' hsplit rfl
    obtain rfl : last = r := List.head_eq_of_cons_eq hr
    exact ⟨filled, Staging.tracks_of_absorbAll h.absorbed, .inl ⟨rfl, h.ended⟩⟩
  · rw [List.concat_eq_append, ← List.cons_append, ← List.append_assoc] at hsplit
    obtain ⟨rfl, -⟩ := List.append_inj' hsplit rfl
    obtain ⟨s, hs, hrest⟩ := Staging.absorbAll_append_eq_ok h.absorbed
    obtain ⟨s', hr, -⟩ := Staging.absorbAll_cons_eq_ok hrest
    exact ⟨s, Staging.tracks_of_absorbAll hs, .inr ⟨by simp, s', hr⟩⟩

/-- A reading that can end a load in one way only is the last, and ends it so. -/
theorem Course.last_of_error {s : Staging} {r : Reading} {later : List Reading} {e : Ending}
    (hr : s.absorb capacity r = .error e)
    (hcase : (later = [] ∧ s.absorb capacity r = .error ending) ∨
      (later ≠ [] ∧ ∃ s', s.absorb capacity r = .ok s')) :
    later = [] ∧ ending = e := by
  rcases hcase with ⟨hlater, hend⟩ | ⟨-, s', hok⟩
  · rw [hr] at hend
    exact ⟨hlater, (Except.error.inj hend).symm⟩
  · rw [hr] at hok
    cases hok

/-- **What a report decides.**  Of the readings of a load one reports at least one byte.  The
earlier ones leave room for no more than the rest of the code region, and the report and the
room alone decide whether it is the last reading, and how it ends the load. -/
theorem Course.at_report (h : Course capacity .start source before filled last ending)
    {earlier later : List Reading} {n : Nat} {w : List UInt8}
    (hsplit : before ++ [last] = earlier ++ .got n w :: later) (hpos : 1 ≤ n) {room : Nat}
    (hroom : room = capacity - total earlier) :
    (∀ index, (later = [] ∧ ending = .overrun index) ↔
      (chunkSize < min n room ∧ index = min n room)) ∧
    ((later = [] ∧ ∃ code, ending = .truncated code) ↔ (room < n ∧ room ≤ chunkSize)) ∧
    (later ≠ [] ↔ ¬chunkSize < min n room ∧ ¬(room < n ∧ room ≤ chunkSize)) := by
  obtain ⟨s, hs, hcase⟩ := h.at_reading hsplit
  rw [← hs.room_eq] at hroom
  subst hroom
  -- exactly one of the three cases holds, and each of them settles all three statements
  rcases Staging.report_cases capacity s hpos with hover | ⟨hcut, hchunk⟩ | ⟨-, hchunk, htaken⟩
  · obtain ⟨rfl, rfl⟩ := Course.last_of_error (Staging.absorb_overrun w hover) hcase
    refine ⟨fun index => ?_, ?_, ?_⟩
    · constructor
      · rintro ⟨-, he⟩; cases he; exact ⟨hover, rfl⟩
      · rintro ⟨-, rfl⟩; exact ⟨rfl, rfl⟩
    · constructor
      · rintro ⟨-, code, he⟩; cases he
      · rintro ⟨hcut, hchunk⟩; omega
    · exact ⟨fun hlater => absurd rfl hlater, fun hnot => absurd hover hnot.1⟩
  · obtain ⟨rfl, rfl⟩ := Course.last_of_error (Staging.absorb_truncated w hcut hchunk) hcase
    refine ⟨fun index => ?_, ?_, ?_⟩
    · constructor
      · rintro ⟨-, he⟩; cases he
      · rintro ⟨hover, -⟩; omega
    · exact ⟨fun _ => ⟨hcut, hchunk⟩, fun _ => ⟨rfl, _, rfl⟩⟩
    · exact ⟨fun hlater => absurd rfl hlater, fun hnot => absurd ⟨hcut, hchunk⟩ hnot.2⟩
  · -- a report that is taken is not the last reading
    have hlater : later ≠ [] := by
      rcases hcase with ⟨-, hend⟩ | ⟨hlater, -⟩
      · rw [Staging.absorb_taken w hpos hchunk htaken] at hend; cases hend
      · exact hlater
    refine ⟨fun index => ?_, ?_, ?_⟩
    · constructor
      · rintro ⟨hnil, -⟩; exact absurd hnil hlater
      · rintro ⟨hover, -⟩; omega
    · constructor
      · rintro ⟨hnil, -⟩; exact absurd hnil hlater
      · rintro ⟨hcut, -⟩; omega
    · exact ⟨fun _ => ⟨by omega, by omega⟩, fun _ => hlater⟩

theorem Course.total_le (h : Course capacity .start source before filled last ending)
    {earlier later : List Reading} {r : Reading}
    (hsplit : before ++ [last] = earlier ++ r :: later) : total earlier ≤ capacity := by
  obtain ⟨s, hs, -⟩ := h.at_reading hsplit
  exact hs.fits

theorem Course.count_of_overrun {index : Nat}
    (h : Course capacity .start source before filled last (.overrun index)) :
    chunkSize < last.count := by
  rcases Staging.absorb_error h.ended with ⟨w, -, he⟩ | ⟨n, w, -, -, -, he⟩ |
    ⟨cause, -, -, he⟩ | ⟨n, w, rfl, hover, -⟩
  · cases he
  · cases he
  · cases he
  · rw [Reading.count_got]; omega

end Course

theorem Reading.Honest.count_le {r : Reading} (h : r.Honest) : r.count ≤ chunkSize := by
  cases r with
  | got n w =>
    obtain ⟨hwritten, hchunk⟩ := h
    exact Nat.le_trans hwritten hchunk
  | failed cause => exact Nat.zero_le _

namespace Memory

/-! ### Endings and outcomes -/

/-- The four outcomes of a load. -/
theorem conclude_cases (m : Memory L) (e : Ending) :
    (∃ n, (m.conclude e).outcome = .ok n) ∨
      (m.conclude e).outcome = .error (.failure (.tooLarge L.capacity)) ∨
      (∃ cause, (m.conclude e).outcome = .error (.failure (.unavailable cause))) ∨
      ∃ index, (m.conclude e).outcome = .error (.overrun index) := by
  cases e with
  | complete code => exact .inl ⟨code.size, rfl⟩
  | truncated code => exact .inr (.inl rfl)
  | broken cause => exact .inr (.inr (.inl ⟨cause, rfl⟩))
  | overrun index => exact .inr (.inr (.inr ⟨index, rfl⟩))

theorem conclude_eq_ok_iff (m : Memory L) (e : Ending) (n : Nat) :
    (m.conclude e).outcome = .ok n ↔ ∃ code, e = .complete code ∧ code.size = n := by
  cases e <;> simp [conclude]

theorem conclude_eq_unavailable_iff (m : Memory L) (e : Ending) (cause : IoError) :
    (m.conclude e).outcome = .error (.failure (.unavailable cause)) ↔ e = .broken cause := by
  cases e <;> simp [conclude]

theorem conclude_eq_overrun_iff (m : Memory L) (e : Ending) (index : Nat) :
    (m.conclude e).outcome = .error (.overrun index) ↔ e = .overrun index := by
  cases e <;> simp [conclude]

theorem conclude_eq_tooLarge_iff (m : Memory L) (e : Ending) :
    (m.conclude e).outcome = .error (.failure (.tooLarge L.capacity)) ↔
      ∃ code, e = .truncated code := by
  cases e <;> simp [conclude]

/-- A load that commits nothing leaves no trace. -/
theorem conclude_of_failed (m : Memory L) (e : Ending)
    (h : (∃ cause, (m.conclude e).outcome = .error (.failure (.unavailable cause))) ∨
      ∃ index, (m.conclude e).outcome = .error (.overrun index)) :
    (m.conclude e).memory = m ∧ (m.conclude e).log = [] := by
  cases e with
  | complete code => rcases h with ⟨cause, h⟩ | ⟨index, h⟩ <;> cases h
  | truncated code => rcases h with ⟨cause, h⟩ | ⟨index, h⟩ <;> cases h
  | broken cause => exact ⟨rfl, rfl⟩
  | overrun index => exact ⟨rfl, rfl⟩

end Memory

/-! ### A load -/

/-- How a load ends is decided by the readings that it asked for: by those before a report the room
that the report meets, and by the two the end. -/
structure Conclusion.DecidedBy (c : Conclusion L) (m : Memory L) (made : List Reading) :
    Prop where
  outcome : (∃ n, c.outcome = .ok n) ∨ c.outcome = .error (.failure (.tooLarge L.capacity)) ∨
    (∃ cause, c.outcome = .error (.failure (.unavailable cause))) ∨
    ∃ index, c.outcome = .error (.overrun index)
  report : ∀ earlier n w later, made = earlier ++ .got n w :: later → 1 ≤ n →
    let room := L.capacity - total earlier
    total earlier ≤ L.capacity ∧
    (∀ index, (later = [] ∧ c.outcome = .error (.overrun index)) ↔
      (chunkSize < min n room ∧ index = min n room)) ∧
    ((later = [] ∧ c.outcome = .error (.failure (.tooLarge L.capacity))) ↔
      (room < n ∧ room ≤ chunkSize)) ∧
    (later ≠ [] ↔ ¬chunkSize < min n room ∧ ¬(room < n ∧ room ≤ chunkSize))
  unchanged : (∃ cause, c.outcome = .error (.failure (.unavailable cause))) ∨
      (∃ index, c.outcome = .error (.overrun index)) → c.memory = m ∧ c.log = []
  honest : (∀ r ∈ made, r.Honest) → ∀ index, c.outcome ≠ .error (.overrun index)

theorem Course.decidedBy {source : σ} {before : List Reading} {filled : Staging} {last : Reading}
    {ending : Ending} (h : Course L.capacity .start source before filled last ending)
    (m : Memory L) : (m.conclude ending).DecidedBy m (before ++ [last]) := by
  refine ⟨m.conclude_cases ending, ?_, m.conclude_of_failed ending, ?_⟩
  · intro earlier n w later hsplit hpos room
    obtain ⟨hover, hcut, hnext⟩ := h.at_report hsplit hpos (show room = _ from rfl)
    refine ⟨h.total_le hsplit, fun index => ?_, ?_, hnext⟩
    · rw [m.conclude_eq_overrun_iff]
      exact hover index
    · rw [m.conclude_eq_tooLarge_iff]
      exact hcut
  · -- a chunk that was overrun contradicts the honesty of the last reading
    intro honest index hoverrun
    rw [m.conclude_eq_overrun_iff] at hoverrun
    subst hoverrun
    have hover := h.count_of_overrun
    have hcount := (honest last (by simp)).count_le
    omega

/-- How a load from any readings ends, if it comes to an end.  A load that goes on for ever meets
no report that would end it. -/
theorem Memory.loadFrom_outcome (m : Memory L) (rs : Stream' Reading) :
    (∀ report, m.loadFrom rs = some report →
      report.toConclusion.DecidedBy m (rs.take report.tally.reads)) ∧
    (m.loadFrom rs = none → ∀ k n w, rs.get k = .got n w → 1 ≤ n →
      let room := L.capacity - total (rs.take k)
      total (rs.take k) ≤ L.capacity ∧
        ¬chunkSize < min n room ∧ ¬(room < n ∧ room ≤ chunkSize)) := by
  constructor
  · intro report h
    obtain ⟨before, filled, last, ending, hrs, hcourse, hconclusion, htally⟩ :=
      exists_course_of_loadFrom h
    rw [take_reads hrs htally, hconclusion]
    exact hcourse.decidedBy m
  · intro h k n w hr hpos room
    -- a load that goes on for ever has absorbed the report, so that it did not end the load
    obtain ⟨s', hs'⟩ := (m.loadFrom_eq_none_iff rs).mp h (k + 1)
    rw [Stream'.take_succ'] at hs'
    obtain ⟨s, hs, hlast⟩ := Staging.absorbAll_append_eq_ok hs'
    obtain ⟨s₁, habsorbed, -⟩ := Staging.absorbAll_cons_eq_ok hlast
    have htracks := Staging.tracks_of_absorbAll hs
    have hroom : s.room L.capacity = room := htracks.room_eq
    rw [hr] at habsorbed
    rcases Staging.report_cases L.capacity s hpos with hover | ⟨hcut, hchunk⟩ | ⟨-, hchunk, hfits⟩
    · rw [Staging.absorb_overrun w hover] at habsorbed
      cases habsorbed
    · rw [Staging.absorb_truncated w hcut hchunk] at habsorbed
      cases habsorbed
    · rw [hroom] at hfits
      exact ⟨htracks.fits, by omega, by omega⟩

/-- **How a load ends**, whatever its source reports.

A load succeeds, is cut short at the end of the memory, fails with its source or overruns
the chunk.  At a reading that reports at least one byte, the earlier readings have reported
no more than the code region holds.  The reading overruns the chunk if and only if more
than a chunk of the report would be staged, and the overrun names that number; it cuts the
load short if and only if it reports more than there is room for, and the room lies in the
chunk; otherwise there is a next reading.  A load that failed with its source or overran
the chunk left the memory as it was and the log empty, and honest readings overrun no
chunk. -/
theorem loadCode_outcome (m : Memory L) (source : σ) :
    ((∃ n, (m.loadCode source).outcome = .ok n) ∨
      (m.loadCode source).outcome = .error (.failure (.tooLarge L.capacity)) ∨
      (∃ cause, (m.loadCode source).outcome = .error (.failure (.unavailable cause))) ∨
      ∃ index, (m.loadCode source).outcome = .error (.overrun index)) ∧
    (∀ earlier n w later, m.made source = earlier ++ .got n w :: later → 1 ≤ n →
      let room := L.capacity - total earlier
      total earlier ≤ L.capacity ∧
      (∀ index, (later = [] ∧ (m.loadCode source).outcome = .error (.overrun index)) ↔
        (chunkSize < min n room ∧ index = min n room)) ∧
      ((later = [] ∧
          (m.loadCode source).outcome = .error (.failure (.tooLarge L.capacity))) ↔
        (room < n ∧ room ≤ chunkSize)) ∧
      (later ≠ [] ↔ ¬chunkSize < min n room ∧ ¬(room < n ∧ room ≤ chunkSize))) ∧
    ((∃ cause, (m.loadCode source).outcome = .error (.failure (.unavailable cause))) ∨
        (∃ index, (m.loadCode source).outcome = .error (.overrun index)) →
      (m.loadCode source).memory = m ∧ (m.loadCode source).log = []) ∧
    ((∀ r ∈ m.made source, r.Honest) →
      ∀ index, (m.loadCode source).outcome ≠ .error (.overrun index)) := by
  obtain ⟨before, filled, last, ending, hcourse⟩ := exists_course L.capacity .start source
  rw [hcourse.made_eq, hcourse.loadCode_eq]
  have hdecided := hcourse.decidedBy m
  exact ⟨hdecided.outcome, hdecided.report, hdecided.unchanged, hdecided.honest⟩

/-- A source that reports three hundred bytes with room for a hundred and ninety: the load
names the room, and leaves the memory alone. -/
theorem loadCode_overrun_of_report :
    let L : Layout := { ram := 200, stack := 8 }
    let m := Memory.zeroed L
    let rs : List Reading := [.exactly [1, 2], .got 300 [7]]
    (m.made rs = [.exactly [1, 2]] ++ .got 300 [7] :: [] ∧ 1 ≤ 300) ∧
      (m.loadCode rs).outcome = .error (.overrun 190) ∧
      (m.loadCode rs).memory = m ∧ (m.loadCode rs).log = [] := by
  intro L m rs
  have hcourse : Course L.capacity .start rs [.exactly [1, 2]]
      ⟨#[1, 2], Chunk.zeroed.overwrite [1, 2]⟩ (.got 300 [7]) (.overrun 190) :=
    ⟨rfl, rfl, rfl⟩
  have hmade := hcourse.made_eq m
  obtain ⟨-, hreports, hatomic, -⟩ := loadCode_outcome m rs
  have hover := ((hreports _ _ _ _ hmade (by decide)).2.1 190).mpr (by decide)
  exact ⟨⟨hmade, by decide⟩, hover.2, hatomic (.inr ⟨190, hover.2⟩)⟩

end FlatMemory
