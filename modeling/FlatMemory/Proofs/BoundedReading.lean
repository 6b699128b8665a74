import FlatMemory.Proofs.Endless
import FlatMemory.Proofs.Reachable

/-!
# How often a load reads

Each answer that a load is given ends the load or takes up room for at least one byte.  So a
load needs no more answers than there are bytes in the code region, and one more to end it.
Interruptions take up nothing, and nothing but interruptions can keep a load from its end.

## Main results

* `Reading.length_answers_le_total` — readings none of which is final report a byte for every
  answer.
* `Course.length_answers_le` — the bound on the answers.
* `Memory.loadFrom_of_lt_answers` — so many answers settle a load, whatever comes after them.
* `Memory.exists_attaining` — the bound is attained.
* `Memory.loadFrom_eq_none_iff_interrupted` — a load goes on for ever if and only if it is
  interrupted for ever.
* `loadFrom_bounded` — **how often a load reads, and when it ends.**
-/

namespace FlatMemory

universe u

variable {σ : Type u} {L : Layout} {capacity : Nat}

open Reading (answers total)

/-! ### The bound -/

/-- Readings none of which is final report at least a byte for every answer. -/
theorem Reading.length_answers_le_total {rs : List Reading}
    (h : ∀ r ∈ rs, r.isFinal = false) : (answers rs).length ≤ total rs := by
  induction rs with
  | nil => exact Nat.le_refl 0
  | cons r rs ih =>
    have hrs := ih fun x hx => h x (List.mem_cons_of_mem r hx)
    have hr := h r List.mem_cons_self
    -- an answer that is not final reports at least a byte, and an interruption is no answer
    have hone : (answers [r]).length ≤ r.count := by
      cases r with
      | got n w =>
        have hn : n ≠ 0 := by simpa [isFinal] using hr
        show 1 ≤ n
        omega
      | failed cause =>
        have hcause : cause.isInterrupted = true := by simpa [isFinal] using hr
        rw [answers_eq_nil (by simpa using hcause)]
        exact Nat.zero_le _
    rw [← List.singleton_append, answers_append, List.length_append, total_append, total_cons,
      total_nil]
    omega

theorem Staging.length_answers_le {s : Staging} {rs : List Reading}
    (h : start.absorbAll capacity rs = .ok s) : (answers rs).length ≤ capacity := by
  have htracks := tracks_of_absorbAll h
  exact Nat.le_trans (Reading.length_answers_le_total htracks.notFinal) htracks.fits

/-- The bound on the answers.  A load is given one answer more than there is room for bytes,
at most. -/
theorem Course.length_answers_le [Source σ] {source : σ} {before : List Reading}
    {filled : Staging} {last : Reading} {ending : Ending}
    (h : Course capacity .start source before filled last ending) :
    (answers (before ++ [last])).length ≤ capacity + 1 := by
  have hbefore := Staging.length_answers_le h.absorbed
  have hlast : (answers [last]).length ≤ 1 := List.length_filter_le _ [last]
  rw [Reading.answers_append, List.length_append]
  omega

theorem Reading.length_answers_take_le (rs : List Reading) (n : Nat) :
    (answers (rs.take n)).length ≤ (answers rs).length :=
  ((List.take_sublist n rs).filter _).length_le

/-! ### Loads that come to an end -/

namespace Memory

/-- A load is given no more answers than the bound, also while it has not come to its end. -/
theorem length_answers_take_le (m : Memory L) {rs : Stream' Reading} {n : Nat}
    (h : ∀ report, m.loadFrom rs = some report → n ≤ report.tally.reads) :
    (answers (rs.take n)).length ≤ L.capacity + 1 := by
  cases hload : m.loadFrom rs with
  | none =>
    obtain ⟨s, hs⟩ := (m.loadFrom_eq_none_iff rs).mp hload n
    exact Nat.le_succ_of_le (Staging.length_answers_le hs)
  | some report =>
    obtain ⟨before, filled, last, ending, hrs, hcourse, -, htally⟩ :=
      exists_course_of_loadFrom hload
    have hasked := take_reads hrs htally
    have hfirst : rs.take n = (before ++ [last]).take n := by
      rw [← hasked, Stream'.take_take, Nat.min_eq_right (h report hload)]
    rw [hfirst]
    exact Nat.le_trans (Reading.length_answers_take_le _ n) hcourse.length_answers_le

/-- So many answers settle a load, whatever is read after them. -/
theorem loadFrom_of_lt_answers (m : Memory L) {rs : List Reading}
    (h : L.capacity < (answers rs).length) :
    ∃ (c : Conclusion L) (tally : Tally) (unread : List Reading),
      tally.reads + unread.length = rs.length ∧
        ∀ more, m.loadFrom (rs ++ₛ more) =
          some { c with rest := unread ++ₛ more, tally := tally } := by
  cases hrs : Staging.start.absorbAll L.capacity rs with
  | ok s =>
    have hle := Staging.length_answers_le hrs
    omega
  | error ending =>
    obtain ⟨before, filled, last, unread, hsplit, hcourse⟩ :=
      Staging.exists_course_of_absorbAll hrs
    refine ⟨m.conclude ending, Tally.zero.addAll (before ++ [last]), unread, ?_, ?_⟩
    · rw [hsplit, List.length_append]
      show 0 + (before ++ [last]).length + _ = _
      omega
    · intro more
      rw [hsplit, Stream'.append_append_stream, m.loadFrom_of_course hcourse]

/-- The bound is attained by a program that fills the code region and comes byte by byte. -/
theorem exists_attaining (m : Memory L) :
    ∃ rs : List Reading, (∀ r ∈ rs, r.Honest) ∧
      ∃ report, m.loadFrom (Source.stream rs) = some report ∧
        (answers ((Source.stream rs).take report.tally.reads)).length = L.capacity + 1 := by
  let rs := Reading.each (List.replicate L.capacity 0)
  obtain ⟨filled, hcourse⟩ : ∃ filled, Course L.capacity .start rs rs filled .nothing
      (.complete (List.replicate L.capacity 0).toArray) :=
    exists_course_each (Nat.le_of_eq List.length_replicate)
  have hbyte : ∀ r ∈ rs, r = .exactly [0] := by
    intro r hr
    obtain ⟨b, hb, rfl⟩ := List.mem_map.mp hr
    rw [List.eq_of_mem_replicate hb]
  have hanswers : answers (rs ++ [.nothing]) = rs ++ [.nothing] := by
    refine List.filter_eq_self.mpr ?_
    intro r hr
    rcases List.mem_append.mp hr with hr | hr
    · rw [hbyte r hr]; rfl
    · rw [List.mem_singleton.mp hr]; rfl
  refine ⟨rs, ?_, _, m.loadFrom_stream rs, ?_⟩
  · intro r hr
    rw [hbyte r hr]
    decide
  · -- one read for each byte, and one that reports the end
    have hreads : (m.loadCode rs).tally.reads = rs.length + 1 := by
      rw [hcourse.loadCode_eq]
      simp [Tally.addAll, Tally.zero]
    rw [hreads, Source.take_stream, hcourse.readings, hanswers]
    simp [rs, Reading.each]

end Memory

/-! ### Loads that go on for ever -/

theorem Reading.answers_take_succ {rs : Stream' Reading} {k : Nat}
    (h : (rs.get k).isInterrupted = false) :
    answers (rs.take (k + 1)) = answers (rs.take k) ++ [rs.get k] := by
  rw [Stream'.take_succ', answers_append, answers_singleton h]

/-- Readings that hold only so many answers are interruptions from some place on. -/
theorem Reading.exists_forall_isInterrupted {rs : Stream' Reading} {b : Nat}
    (h : ∀ n, (answers (rs.take n)).length ≤ b) :
    ∃ n, ∀ k, n ≤ k → (rs.get k).isInterrupted = true := by
  by_contra hnot
  have hmore : ∀ n, ∃ k, n ≤ k ∧ (rs.get k).isInterrupted = false := by
    intro n
    by_contra hnone
    refine hnot ⟨n, fun k hk => ?_⟩
    rw [← Bool.not_eq_false]
    exact fun hk' => hnone ⟨k, hk, hk'⟩
  -- after every answer there is another one
  have hmany : ∀ b, ∃ n, b ≤ (answers (rs.take n)).length := by
    intro b
    induction b with
    | zero => exact ⟨0, Nat.zero_le _⟩
    | succ b ih =>
      obtain ⟨n, hn⟩ := ih
      obtain ⟨k, hk, hanswer⟩ := hmore n
      refine ⟨k + 1, ?_⟩
      have hprefix := length_answers_take_le (rs.take k) n
      rw [Stream'.take_take, Nat.min_eq_right hk] at hprefix
      rw [answers_take_succ hanswer, List.length_append, List.length_singleton]
      omega
  obtain ⟨n, hn⟩ := hmany (b + 1)
  have hle := h n
  omega

/-- A load goes on for ever if and only if it is interrupted for ever, behind readings none
of which has ended it. -/
theorem Memory.loadFrom_eq_none_iff_interrupted (m : Memory L) (rs : Stream' Reading) :
    m.loadFrom rs = none ↔ ∃ n s, Staging.start.absorbAll L.capacity (rs.take n) = .ok s ∧
      ∀ k, n ≤ k → (rs.get k).isInterrupted = true := by
  rw [m.loadFrom_eq_none_iff]
  constructor
  · intro h
    have hbound : ∀ n, (answers (rs.take n)).length ≤ L.capacity := by
      intro n
      obtain ⟨s, hs⟩ := h n
      exact Staging.length_answers_le hs
    obtain ⟨n, hn⟩ := Reading.exists_forall_isInterrupted hbound
    obtain ⟨s, hs⟩ := h n
    exact ⟨n, s, hs, hn⟩
  · rintro ⟨n, s, hs, hinterrupted⟩ k
    -- also `n` readings further on everything has been absorbed
    have hlater : Staging.start.absorbAll L.capacity (rs.take (n + k)) = .ok s := by
      rw [Stream'.take_add, Staging.absorbAll_append hs]
      apply Staging.absorbAll_of_isInterrupted
      intro r hr
      obtain ⟨i, hi, rfl⟩ := List.mem_iff_getElem.mp hr
      rw [Stream'.take_get, Stream'.get_drop]
      exact hinterrupted (n + i) (Nat.le_add_right n i)
    rw [Nat.add_comm, Stream'.take_add] at hlater
    obtain ⟨s', hs', -⟩ := Staging.absorbAll_append_eq_ok hlater
    exact ⟨s', hs'⟩

/-- **How often a load reads, and when it ends.**  Let a load read any sequence of readings; on
the readings of a source that is the load from the source.  As long as it asks for readings, it
is given one answer more than there are bytes in the code region, at most, and some honest
source of no more bytes gives it as many.  So a list of readings with that many answers settles
the load: it ends within the list, and its end, its log and what it has read are the same
whatever comes after the list.  A load goes on for ever if and only if it is interrupted for
ever, behind readings none of which has ended it. -/
theorem loadFrom_bounded (m : Memory L) :
    (∀ {σ : Type u} [Source σ] (source : σ), m.loadFrom (Source.stream source) =
      some { m.loadCode source with rest := Source.stream (m.loadCode source).rest }) ∧
    (∀ rs n, (∀ report, m.loadFrom rs = some report → n ≤ report.tally.reads) →
      (answers (rs.take n)).length ≤ L.capacity + 1) ∧
    (∃ rs : List Reading, (∀ r ∈ rs, r.Honest) ∧
      ∃ report, m.loadFrom (Source.stream rs) = some report ∧
        (answers ((Source.stream rs).take report.tally.reads)).length = L.capacity + 1) ∧
    (∀ rs : List Reading, L.capacity + 1 ≤ (answers rs).length →
      ∃ (c : Conclusion L) (tally : Tally) (unread : List Reading),
        tally.reads + unread.length = rs.length ∧
          ∀ more, m.loadFrom (rs ++ₛ more) =
            some { c with rest := unread ++ₛ more, tally := tally }) ∧
    (∀ rs, m.loadFrom rs = none ↔
      ∃ n s, Staging.start.absorbAll L.capacity (rs.take n) = .ok s ∧
        ∀ k, n ≤ k → (rs.get k).isInterrupted = true) := by
  refine ⟨fun source => m.loadFrom_stream source, fun rs n => m.length_answers_take_le,
    m.exists_attaining, fun rs h => m.loadFrom_of_lt_answers h,
    fun rs => m.loadFrom_eq_none_iff_interrupted rs⟩

/-- Two answers settle a load into a single byte, with an interruption before them, even if
nothing but interruptions comes after them.  Alone these never let a load come to an end. -/
theorem loadFrom_bounded_by_two :
    let L : Layout := { ram := 2, stack := 1 }
    let m := Memory.zeroed L
    let rs : List Reading := [.failed (.plain .interrupted), .exactly [7], .got 5 [9]]
    let endless := Stream'.const (Reading.failed (.plain .interrupted))
    L.capacity + 1 ≤ (answers rs).length ∧
      (∃ report, m.loadFrom (rs ++ₛ endless) = some report ∧ report.tally = ⟨3, 6⟩ ∧
        report.outcome = .error (.failure (.tooLarge 1)) ∧ report.memory = ⟨#v[0, 7], 1⟩ ∧
        (answers ((rs ++ₛ endless).take report.tally.reads)).length ≤ 2) ∧
      m.loadFrom endless = none := by
  intro L m rs endless
  have hanswers : L.capacity + 1 ≤ (answers rs).length := by decide
  obtain ⟨-, hbound, -, hsettled, hforever⟩ := loadFrom_bounded.{0} m
  obtain ⟨c, tally, unread, -, hload⟩ := hsettled rs hanswers
  -- how the load ends is found with nothing after the list
  let before : List Reading := [.failed (.plain .interrupted), .exactly [7]]
  have hcourse : Course L.capacity .start (before ++ [.got 5 [9]]) before
      ⟨#[7], Chunk.zeroed.overwrite [7]⟩ (.got 5 [9]) (.truncated #[7]) := ⟨rfl, rfl, rfl⟩
  have hknown := m.loadFrom_of_course hcourse (Stream'.const .nothing)
  have hreport := Option.some.inj ((hload _).symm.trans hknown)
  obtain rfl : c = _ := congrArg LoadReport.toConclusion hreport
  obtain rfl : tally = _ := congrArg LoadReport.tally hreport
  refine ⟨hanswers, ⟨_, hload endless, rfl, rfl, rfl, ?_⟩, (hforever endless).mpr ?_⟩
  · refine hbound _ _ fun report hreport' => ?_
    obtain rfl := Option.some.inj ((hload endless).symm.trans hreport')
    exact Nat.le_refl _
  · exact ⟨0, .start, rfl, fun k _ => rfl⟩

end FlatMemory
