import FlatMemory.Session
import FlatMemory.Proofs.Outcome

/-!
# Loads that share a source

A source outlives the loads that read it.  Each load takes up the source where the last one
left it, and leaves it right after the reading that decided its end, so nothing is lost
between two loads and nothing is delivered twice.  What a single load was given and did not
commit is gone; the next load goes on behind it.

## Main definitions

* `Reading.Decides` — the reading at which a load from an honest source ends.
* `Settled` — how a load ends, and which of the bytes delivered to it are committed and which
  are dropped.
* `Visit`, `Sharing` — a load from a source that is also read by others, and the memories
  that take turns at the source.
* `Visit.Conserves` — what a load does with the bytes that it was given.

## Main results

* `Staging.Tracks.absorb_error_iff` — an honest reading ends the collecting if and only if it
  decides.
* `Course.settled` — what was delivered to a load is committed or dropped, by how it ends.
* `Visit.conserves` — a load from an honest source settles all that is delivered to it.
* `Sharing.readings_visits` — the readings of successive loads are those of the source.
* `bytes_visits` — **conservation of a shared source.**
-/

namespace FlatMemory

universe u v

variable {σ : Type u} {ι : Type v} [Source σ] {L : Layout}

open Reading (total)

/-! ### The deciding reading -/

/-- The reading decides a load after the earlier ones: the source has nothing more to give, or
more has been reported now than there is room for. -/
def Reading.Decides (capacity : Nat) (earlier : List Reading) (r : Reading) : Prop :=
  r.isFinal = true ∨ capacity < total earlier + r.count

/-- An honest reading ends the collecting if and only if it decides. -/
theorem Staging.Tracks.absorb_error_iff {capacity : Nat} {s : Staging} {earlier : List Reading}
    {r : Reading} (h : s.Tracks capacity earlier) (honest : r.Honest) :
    (∃ e, s.absorb capacity r = .error e) ↔ r.Decides capacity earlier := by
  have hroom := h.room_eq
  have hfits := h.fits
  constructor
  · rintro ⟨e, he⟩
    rcases Staging.absorb_error he with ⟨w, rfl, -⟩ | ⟨n, w, rfl, hover, -, -⟩ |
      ⟨cause, rfl, hi, -⟩ | ⟨n, w, rfl, hover, -⟩
    · exact .inl rfl
    · refine .inr ?_
      rw [Reading.count_got]
      omega
    · exact .inl (by simp [Reading.isFinal, hi])
    · -- an honest report lies in the chunk
      have hcount := honest.count_le
      rw [Reading.count_got] at hcount
      omega
  · intro hdecides
    cases hr : s.absorb capacity r with
    | error e => exact ⟨e, rfl⟩
    | ok s' =>
      -- a reading that is absorbed is not final, and its report is in the room
      have hnext := Staging.isFinal_of_absorb hr
      have hmore := (h.absorb hr).fits
      rcases hdecides with hfinal | hover
      · rw [hnext] at hfinal
        cases hfinal
      · simp only [Reading.total_append, Reading.total_cons, Reading.total_nil] at hmore
        omega

/-! ### What is committed and what is dropped -/

/-- How a load ends at its last reading, and how the bytes that were delivered to it split into
those that it has committed and those that it has dropped. -/
inductive Settled (m : Memory L) (before : List Reading) (c : Conclusion L) :
    Reading → List UInt8 → List UInt8 → Prop
  /-- The source has nothing more, and all that it delivered is committed. -/
  | whole {w committed : List UInt8} : c.outcome = .ok committed.length →
      c.memory = m.commit committed.toArray → committed.length ≤ L.capacity →
      Settled m before c (.got 0 w) committed []
  /-- The last report exceeds the room; what fits is committed, and the end of the report is
  dropped. -/
  | cut {n : Nat} {w committed dropped : List UInt8} : L.capacity < total before + n →
      c.outcome = .error (.failure (.tooLarge L.capacity)) →
      c.memory = m.commit committed.toArray → committed.length = L.capacity →
      1 ≤ dropped.length → dropped.length ≤ chunkSize →
      Settled m before c (.got n w) committed dropped
  /-- The source failed, and all that it delivered is dropped. -/
  | lost {cause : IoError} {dropped : List UInt8} : cause.isInterrupted = false →
      c.outcome = .error (.failure (.unavailable cause)) → c.memory = m →
      dropped.length ≤ L.capacity → Settled m before c (.failed cause) [] dropped

section Course

variable {source : σ} {before : List Reading} {filled : Staging} {last : Reading}
  {ending : Ending}

/-- What was delivered to a load that is cut is its code and, behind it, the end of the last
report. -/
theorem Course.exists_dropped_of_truncated {code : Array UInt8}
    (h : Course L.capacity .start source before filled last (.truncated code))
    (honest : Source.Honest source) :
    ∃ dropped, (before ++ [last]).flatMap Reading.bytes = code.toList ++ dropped ∧
      1 ≤ dropped.length ∧ dropped.length ≤ chunkSize := by
  have hlast := (h.honest honest).2
  have hstaged := h.toList_staged honest
  rcases Staging.absorb_error h.ended with ⟨w, -, he⟩ | ⟨n, w, rfl, hover, hchunk, he⟩ |
    ⟨cause, -, -, he⟩ | ⟨n, w, -, -, he⟩
  · cases he
  · -- the end of the report is dropped, from where the room ends
    obtain rfl := Ending.truncated.inj he
    have hcount := hlast.count_le
    rw [Reading.count_got] at hcount
    have hfront := Staging.toList_front_overwrite filled.chunk
      (Nat.le_trans (Nat.le_of_lt hover) hlast.1) hchunk
    have hroom : w.take (filled.room L.capacity) =
        (w.take n).take (filled.room L.capacity) := by
      rw [List.take_take, Nat.min_eq_left (Nat.le_of_lt hover)]
    have hreport : ((w.take n).drop (filled.room L.capacity)).length =
        n - filled.room L.capacity := by
      rw [List.length_drop, List.length_take_of_le hlast.1]
    refine ⟨(w.take n).drop (filled.room L.capacity), ?_, by omega, by omega⟩
    rw [Array.toList_append, hstaged, hfront, hroom, List.append_assoc, List.take_append_drop,
      List.flatMap_append, List.flatMap_singleton]
    rfl
  · cases he
  · cases he

/-- The bytes of honest readings are committed or dropped, and nothing becomes of them
twice. -/
theorem Course.settled (h : Course L.capacity .start source before filled last ending)
    (honest : Source.Honest source) (m : Memory L) :
    ∃ committed dropped, (before ++ [last]).flatMap Reading.bytes = committed ++ dropped ∧
      Settled m before (m.conclude ending) last committed dropped := by
  obtain ⟨hbefore, hlast⟩ := h.honest honest
  have htracks := Staging.tracks_of_absorbAll h.absorbed
  have hstaged := h.toList_staged honest
  have hlen := Reading.length_flatMap_bytes hbefore
  have hfits := htracks.fits
  have hroom := htracks.room_eq
  rcases Staging.absorb_error h.ended with ⟨w, rfl, rfl⟩ | ⟨n, w, rfl, hover, -, rfl⟩ |
    ⟨cause, rfl, hi, rfl⟩ | ⟨n, w, rfl, hover, rfl⟩
  · -- nothing more: the staged bytes are those that were delivered
    refine ⟨before.flatMap Reading.bytes, [], by simp [Reading.bytes], .whole ?_ ?_ (by omega)⟩
    · rw [← hstaged]
      rfl
    · rw [← hstaged]
      rfl
  · -- the last report is cut where the room ends
    obtain ⟨dropped, hsplit, hpos, hchunk⟩ := h.exists_dropped_of_truncated honest
    exact ⟨_, dropped, hsplit, .cut (by omega) rfl rfl h.size_of_truncated hpos hchunk⟩
  · -- a failure: nothing that was staged is committed
    exact ⟨[], before.flatMap Reading.bytes, by simp [Reading.bytes],
      .lost hi rfl rfl (by omega)⟩
  · -- an honest report lies in the chunk
    have hcount := hlast.count_le
    rw [Reading.count_got] at hcount
    omega

end Course

/-! ### Taking turns -/

/-- A load from a source that is also read by others. -/
structure Visit (σ : Type u) where
  layout : Layout
  memory : Memory layout
  source : σ

namespace Visit

def report (v : Visit σ) : LoadReport v.layout σ :=
  v.memory.loadCode v.source

def readings (v : Visit σ) : List Reading :=
  v.memory.made v.source

def delivered (v : Visit σ) : List UInt8 :=
  v.readings.flatMap Reading.bytes

/-- What a load does with the bytes that it was given. -/
structure Conserves (v : Visit σ) : Prop where
  rest : v.report.rest = Source.after v.readings.length v.source
  /-- It asks for a next reading if and only if the last one did not decide. -/
  decided : ∀ earlier r later, v.readings = earlier ++ r :: later →
    (later = [] ↔ r.Decides v.layout.capacity earlier)
  /-- The deciding reading settles what is committed and what is dropped. -/
  settled : ∃ before last committed dropped, v.readings = before ++ [last] ∧
    v.delivered = committed ++ dropped ∧
    Settled v.memory before v.report.toConclusion last committed dropped
  consumed : v.report.tally.consumed = v.delivered.length
  bounded : v.delivered.length ≤ v.layout.capacity + chunkSize

section Course

variable (v : Visit σ) {before : List Reading} {filled : Staging} {last : Reading}
  {ending : Ending}

theorem readings_eq (h : Course v.layout.capacity .start v.source before filled last ending) :
    v.readings = before ++ [last] :=
  h.made_eq v.memory

theorem rest_eq (h : Course v.layout.capacity .start v.source before filled last ending) :
    v.report.rest = Source.after (before.length + 1) v.source := by
  unfold report
  rw [h.loadCode_eq]

end Course

/-- **A load from an honest source settles all that is delivered to it.** -/
theorem conserves (v : Visit σ) (honest : Source.Honest v.source) : v.Conserves := by
  obtain ⟨before, filled, last, ending, hcourse⟩ :=
    exists_course v.layout.capacity .start v.source
  obtain ⟨hbefore, hlast⟩ := hcourse.honest honest
  have hall : ∀ r ∈ before ++ [last], r.Honest := by
    intro r hr
    rcases List.mem_append.mp hr with hr | hr
    · exact hbefore r hr
    · rw [List.mem_singleton.mp hr]
      exact hlast
  have hreadings := v.readings_eq hcourse
  have hreport : v.report = _ := hcourse.loadCode_eq v.memory
  have hlength : v.delivered.length = total (before ++ [last]) := by
    unfold delivered
    rw [hreadings, Reading.length_flatMap_bytes hall]
  constructor
  case rest =>
    rw [v.rest_eq hcourse, hreadings, List.length_append, List.length_singleton]
  case decided =>
    intro earlier r later hsplit
    rw [hreadings] at hsplit
    have hr : r.Honest := hall r (by rw [hsplit]; simp)
    obtain ⟨s, hs, hcase⟩ := hcourse.at_reading hsplit
    rw [← hs.absorb_error_iff hr]
    constructor
    · rintro rfl
      rcases hcase with ⟨-, hend⟩ | ⟨hlater, -⟩
      · exact ⟨ending, hend⟩
      · exact absurd rfl hlater
    · rintro ⟨e, he⟩
      exact (Course.last_of_error he hcase).1
  case settled =>
    obtain ⟨committed, dropped, hsplit, hsettled⟩ := hcourse.settled honest v.memory
    refine ⟨before, last, committed, dropped, hreadings, ?_, ?_⟩
    · unfold delivered
      rw [hreadings, hsplit]
    · rw [hreport]
      exact hsettled
  case consumed =>
    rw [hlength, hreport]
    simp [Tally.addAll, Tally.zero]
  case bounded =>
    -- the earlier readings fit, and the last one is a part of a chunk
    have hfits := (Staging.tracks_of_absorbAll hcourse.absorbed).fits
    have hcount := hlast.count_le
    rw [hlength, Reading.total_append, Reading.total_cons, Reading.total_nil]
    omega

end Visit

/-- Memories that take turns at one source. -/
structure Sharing (σ : Type u) (ι : Type v) where
  shelf : ι → AnyMemory
  source : σ

namespace Sharing

/-- A load into one of the memories. -/
def visit (s : Sharing σ ι) (i : ι) : Visit σ :=
  ⟨(s.shelf i).1, (s.shelf i).2, s.source⟩

variable [DecidableEq ι]

def next (s : Sharing σ ι) (i : ι) : Sharing σ ι where
  shelf j := if j = i then ⟨(s.visit i).layout, (s.visit i).report.memory⟩ else s.shelf j
  source := (s.visit i).report.rest

/-- Loads one after the other, each into the memory whose turn it is. -/
def visits (s : Sharing σ ι) : List ι → List (Visit σ)
  | [] => []
  | i :: is => s.visit i :: (s.next i).visits is

def after (s : Sharing σ ι) (is : List ι) : Sharing σ ι :=
  is.foldl next s

end Sharing

/-! ### Conservation -/

namespace Sharing

variable [DecidableEq ι]

/-- The readings of successive loads are those of the source, in their order, and what the
loads leave is what those readings leave.  Each of the loads conserves what it was given. -/
theorem readings_visits (is : List ι) : ∀ s : Sharing σ ι, Source.Honest s.source →
    let n := ((s.visits is).flatMap Visit.readings).length
    (s.visits is).flatMap Visit.readings = Source.readings n s.source ∧
      (s.after is).source = Source.after n s.source ∧ ∀ v ∈ s.visits is, v.Conserves := by
  -- on the loads, for all sources: the first load leaves another one to the rest
  induction is with
  | nil =>
    intro s honest
    refine ⟨rfl, rfl, ?_⟩
    intro v hv
    cases hv
  | cons i is ih =>
    intro s honest
    have hfirst : (s.visit i).Conserves := (s.visit i).conserves honest
    have hmade : (s.visit i).readings =
        Source.readings (s.visit i).readings.length s.source := by
      unfold Visit.readings Memory.made
      rw [Source.length_readings]
      rfl
    have hnext : (s.next i).source =
        Source.after (s.visit i).readings.length s.source := hfirst.rest
    have honest' : Source.Honest (s.next i).source := by
      rw [hnext]
      exact honest.after _
    obtain ⟨hreadings, hafter, hrest⟩ := ih (s.next i) honest'
    rw [hnext] at hreadings hafter
    have hvisits : (s.visits (i :: is)).flatMap Visit.readings =
        (s.visit i).readings ++ ((s.next i).visits is).flatMap Visit.readings := rfl
    rw [hvisits, List.length_append]
    refine ⟨?_, ?_, ?_⟩
    · rw [Source.readings_add, ← hmade, ← hreadings]
    · rw [Source.after_add, ← hafter]
      rfl
    · intro v hv
      rcases List.mem_cons.mp hv with rfl | hv
      · exact hfirst
      · exact hrest v hv

end Sharing

/-- **Conservation of a shared source.**  Let memories of any layouts and contents take turns
at an honest source, in any order and any number of times.  Then each load conserves what it
was given: it asks for readings up to the one that decides, commits or drops what they
delivered, and leaves the source right behind them.  The bytes delivered to the loads, one
after the other, are those of the source up to where the last load left it; and what it has
yet to give are the bytes after them, whatever the loads have dropped. -/
theorem bytes_visits [DecidableEq ι] (s : Sharing σ ι) (honest : Source.Honest s.source)
    (is : List ι) :
    (∀ v ∈ s.visits is, v.Conserves) ∧
    ∃ n, (s.after is).source = Source.after n s.source ∧
      (s.visits is).flatMap Visit.readings = Source.readings n s.source ∧
      ∀ k, (Source.readings (n + k) s.source).flatMap Reading.bytes =
        (s.visits is).flatMap Visit.delivered ++
          (Source.readings k (s.after is).source).flatMap Reading.bytes := by
  obtain ⟨hreadings, hafter, hconserves⟩ := s.readings_visits is honest
  refine ⟨hconserves, _, hafter, hreadings, ?_⟩
  intro k
  have hdelivered : (s.visits is).flatMap Visit.delivered =
      ((s.visits is).flatMap Visit.readings).flatMap Reading.bytes := by
    rw [List.flatMap_assoc]
    rfl
  rw [Source.readings_add, List.flatMap_append, ← hafter, ← hreadings, hdelivered]

/-- Two memories take turns, with room for two bytes and for five.  The first load is cut after
two of three bytes, the second fails, and the third loads what comes then. -/
theorem bytes_visits_after_cut_and_failure :
    let L : Layout := { ram := 3, stack := 1 }
    let L' : Layout := { ram := 5, stack := 0 }
    let s : Sharing (List Reading) Bool :=
      ⟨fun i => if i then ⟨L', .zeroed L'⟩ else ⟨L, .zeroed L⟩,
        [.exactly [1, 2, 3], .got 1 [4, 9], .failed (.plain .other), .exactly [5], .nothing,
          .exactly [6]]⟩
    let is := [false, true, false]
    Source.Honest s.source ∧ (s.visits is).flatMap Visit.delivered = [1, 2, 3, 4, 5] ∧
      (s.after is).source = [.exactly [6]] := by
  intro L L' s is
  have honest : Source.Honest s.source := (Source.follows_self _).honest (by decide)
  obtain ⟨-, n, hafter, hreadings, hbytes⟩ := bytes_visits s honest is
  -- the courses of the three loads say how often the source was read
  let v := s.visit false
  let v' := (s.next false).visit true
  let v'' := ((s.next false).next true).visit false
  have hcut : Course L.capacity .start v.source [] .start (.exactly [1, 2, 3])
      (.truncated #[1, 2]) := ⟨rfl, rfl, rfl⟩
  have hrest : v'.source = _ := v.rest_eq hcut
  have hfailed : Course L'.capacity .start v'.source [.got 1 [4, 9]]
      ⟨#[4], Chunk.zeroed.overwrite [4, 9]⟩ (.failed (.plain .other))
      (.broken (.plain .other)) := by
    rw [hrest]
    exact ⟨rfl, rfl, rfl⟩
  have hrest' : v''.source = _ := v'.rest_eq hfailed
  have hwhole : Course L.capacity .start v''.source [.exactly [5]]
      ⟨#[5], Chunk.zeroed.overwrite [5]⟩ .nothing (.complete #[5]) := by
    rw [hrest', hrest]
    exact ⟨rfl, rfl, rfl⟩
  have hmade : (s.visits is).flatMap Visit.readings = s.source.take 5 := by
    show v.readings ++ (v'.readings ++ (v''.readings ++ [])) = _
    rw [v.readings_eq hcut, v'.readings_eq hfailed, v''.readings_eq hwhole]
    rfl
  obtain rfl : n = 5 := by
    rw [← Source.length_readings n s.source, ← hreadings, hmade]
    rfl
  have hdelivered := hbytes 0
  simp only [Source.readings_zero, List.flatMap_nil, List.append_nil] at hdelivered
  exact ⟨honest, hdelivered.symm, hafter⟩

end FlatMemory
