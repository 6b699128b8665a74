import Mathlib.Data.Stream.Init
import Mathlib.Order.Lattice.Nat
import FlatMemory.Proofs.Collecting

/-!
# Loads from readings without end

A source has to run out of interruptions, so that every load from it comes to an end.  Here
nothing is asked: the readings are any sequence without end, and a load that is interrupted for
ever does not come to an end either.  It is the same loop all the same.  The load from a source
is the load from the sequence of its readings, and a load that comes to an end is the load from
the list of the readings that it asked for.

## Main definitions

* `Reading.answers` — those of some readings that are no interruptions.
* `Source.stream` — all readings of a source, one after the other.
* `firstAnswer` — what more and more attempts come to.
* `collectWithin` — the collecting, if it ends within a number of readings.
* `collectFrom`, `Memory.loadFrom` — the collecting and the load, if they come to an end.

## Main results

* `collectFrom_eq` — the collecting, one reading at a time.
* `collectFrom_append` — the collecting goes on behind readings that were absorbed.
* `collectFrom_eq_some_iff` — a collecting ends where a course of its readings does.
* `collectFrom_eq_none_iff` — a collecting goes on for ever if and only if any number of
  readings is absorbed.
* `Memory.loadFrom_stream` — the load from a source is the load from its readings.
* `Memory.exists_course_of_loadFrom` — a load that comes to an end has a course.
* `Memory.eq_loadCode_take`, `Memory.loadFrom_eq_loadCode_take` — a load depends on the readings
  that it asks for, and on no others.
-/

namespace FlatMemory

universe u

variable {σ : Type u} {L : Layout} {capacity : Nat}

/-! ### Answers and interruptions -/

/-- Those of some readings that are no interruptions. -/
def Reading.answers (rs : List Reading) : List Reading :=
  rs.filter fun r => !r.isInterrupted

@[simp] theorem Reading.answers_append (rs rs' : List Reading) :
    answers (rs ++ rs') = answers rs ++ answers rs' :=
  List.filter_append rs rs'

theorem Reading.answers_eq_nil {rs : List Reading} (h : ∀ r ∈ rs, r.isInterrupted = true) :
    answers rs = [] := by
  unfold answers
  rw [List.filter_eq_nil_iff]
  intro r hr
  rw [h r hr]
  decide

theorem Reading.answers_singleton {r : Reading} (h : r.isInterrupted = false) :
    answers [r] = [r] := by
  simp [answers, h]

namespace Staging

theorem absorb_of_isInterrupted (s : Staging) {r : Reading} (h : r.isInterrupted = true) :
    s.absorb capacity r = .ok s := by
  cases r with
  | got n w => simp at h
  | failed cause =>
    rw [Reading.isInterrupted_failed] at h
    rw [absorb_failed, if_pos h]

theorem absorbAll_of_isInterrupted (s : Staging) {rs : List Reading}
    (h : ∀ r ∈ rs, r.isInterrupted = true) : s.absorbAll capacity rs = .ok s := by
  induction rs with
  | nil => rfl
  | cons r rs ih =>
    rw [absorbAll_cons_ok (s.absorb_of_isInterrupted (h r List.mem_cons_self))]
    exact ih fun x hx => h x (List.mem_cons_of_mem r hx)

theorem absorbAll_append {s s' : Staging} {rs : List Reading}
    (h : s.absorbAll capacity rs = .ok s') (rs' : List Reading) :
    s.absorbAll capacity (rs ++ rs') = s'.absorbAll capacity rs' := by
  induction rs generalizing s with
  | nil =>
    obtain rfl : s = s' := Except.ok.inj h
    rfl
  | cons r rs ih =>
    obtain ⟨s₁, hr, hrs⟩ := absorbAll_cons_eq_ok h
    rw [List.cons_append, absorbAll_cons_ok hr, ih hrs]

end Staging

/-! ### The readings of a source -/

namespace Source

variable [Source σ]

def stream (source : σ) : Stream' Reading := fun n => (read (after n source)).1

theorem stream_eq_cons (source : σ) :
    stream source = Stream'.cons (read source).1 (stream (read source).2) := by
  funext n
  cases n with
  | zero => rfl
  | succ n => rfl

/-- The first readings of a source, and then those of what they leave. -/
theorem stream_eq_append (n : Nat) : ∀ source : σ,
    stream source = readings n source ++ₛ stream (after n source) := by
  induction n with
  | zero => intro source; rfl
  | succ n ih =>
    intro source
    rw [stream_eq_cons, ih, readings_succ, after_succ, Stream'.cons_append_stream]

theorem take_stream (n : Nat) (source : σ) : (stream source).take n = readings n source := by
  have hlength := length_readings n source
  rw [stream_eq_append n source, Stream'.take_append_of_le_length _ _ _ (by omega),
    List.take_of_length_le (by omega)]

theorem stream_list (rs : List Reading) :
    stream rs = rs ++ₛ Stream'.const Reading.nothing := by
  induction rs with
  | nil =>
    funext n
    have hrest : after n ([] : List Reading) = [] := by
      induction n with
      | zero => rfl
      | succ n ih => exact ih
    show (read (after n [])).1 = Reading.nothing
    rw [hrest, read_nil]
  | cons r rs ih =>
    rw [stream_eq_cons, read_cons, Stream'.cons_append_stream, ih]

end Source

/-! ### Courses through a list -/

/-- Readings that are absorbed, and one that ends the collecting, are the course of their
list. -/
theorem Staging.course_list {s filled : Staging} {before : List Reading} {last : Reading}
    {ending : Ending} (habsorbed : s.absorbAll capacity before = .ok filled)
    (hended : filled.absorb capacity last = .error ending) :
    Course capacity s (before ++ [last]) before filled last ending where
  readings := by
    rw [Source.readings_list, List.take_append_of_le_length (by simp),
      List.take_of_length_le (by simp)]
  absorbed := habsorbed
  ended := hended

/-- Of readings that are not all absorbed, one is the first that is not. -/
theorem Staging.exists_course_of_absorbAll {s : Staging} {rs : List Reading} {ending : Ending}
    (h : s.absorbAll capacity rs = .error ending) :
    ∃ before filled last later, rs = before ++ [last] ++ later ∧
      Course capacity s (before ++ [last]) before filled last ending := by
  induction rs generalizing s with
  | nil => cases h
  | cons r rs ih =>
    cases hr : s.absorb capacity r with
    | error e =>
      rw [absorbAll_cons_error hr] at h
      cases h
      exact ⟨[], s, r, rs, rfl, course_list (absorbAll_nil capacity s) hr⟩
    | ok s' =>
      rw [absorbAll_cons_ok hr] at h
      obtain ⟨before, filled, last, later, hrs, hcourse⟩ := ih h
      refine ⟨r :: before, filled, last, later, ?_, course_list ?_ hcourse.ended⟩
      · rw [hrs, List.cons_append, List.cons_append]
      · rw [absorbAll_cons_ok hr, hcourse.absorbed]

/-- Of the readings of a course all but the last are absorbed, and no reading behind them is. -/
theorem Course.absorbAll_take_iff {s filled : Staging} {before : List Reading} {last : Reading}
    {ending : Ending} (h : Course capacity s (before ++ [last]) before filled last ending)
    {rs : Stream' Reading} (hrs : rs.take (before.length + 1) = before ++ [last]) (n : Nat) :
    (∃ s', s.absorbAll capacity (rs.take n) = .ok s') ↔ n ≤ before.length := by
  constructor
  · rintro ⟨s', hs'⟩
    -- more readings than those before the last include the last, which is not absorbed
    by_contra hnot
    obtain ⟨k, rfl⟩ := Nat.exists_eq_add_of_le (Nat.succ_le_of_lt (Nat.lt_of_not_le hnot))
    rw [Stream'.take_add, hrs, List.append_assoc, Staging.absorbAll_append h.absorbed,
      List.singleton_append, Staging.absorbAll_cons_error h.ended] at hs'
    cases hs'
  · intro hle
    have hbefore : rs.take before.length = before := by
      have htake : (rs.take (before.length + 1)).take before.length = rs.take before.length := by
        rw [Stream'.take_take, Nat.min_eq_right (Nat.le_succ _)]
      rw [← htake, hrs, List.take_left]
    obtain ⟨k, hk⟩ := Nat.exists_eq_add_of_le hle
    have habsorbed := h.absorbed
    rw [← hbefore, hk, Stream'.take_add] at habsorbed
    obtain ⟨s', hs', -⟩ := Staging.absorbAll_append_eq_ok habsorbed
    exact ⟨s', hs'⟩

/-! ### Attempts -/

section Attempts

variable {α β : Type}

/-- What more and more attempts come to: the answer of the first of them that has one. -/
noncomputable def firstAnswer (f : Nat → Option α) : Option α :=
  f (sInf {n | (f n).isSome})

/-- If further attempts keep an answer, any attempt that has one will do. -/
theorem firstAnswer_eq_some_iff {f : Nat → Option α}
    (keeps : ∀ n a, f n = some a → f (n + 1) = some a) {a : α} :
    firstAnswer f = some a ↔ ∃ n, f n = some a := by
  constructor
  · intro h
    exact ⟨_, h⟩
  · rintro ⟨n, hn⟩
    have hmem : n ∈ {k | (f k).isSome} := by
      show (f n).isSome
      rw [hn]
      rfl
    obtain ⟨b, hb⟩ := Option.isSome_iff_exists.mp (Nat.sInf_mem ⟨n, hmem⟩)
    have hlater : f n = some b :=
      Nat.le_induction hb (fun k _ h => keeps k b h) n (Nat.sInf_le hmem)
    rw [firstAnswer, hb, ← hlater, hn]

theorem firstAnswer_map (f : Nat → Option α) (g : α → β) :
    firstAnswer (fun n => (f n).map g) = (firstAnswer f).map g := by
  unfold firstAnswer
  simp only [Option.isSome_map]

end Attempts

/-! ### The collecting -/

/-- Reads a sequence until the staging ends, but at most so many times. -/
def collectWithin (capacity : Nat) :
    Nat → Staging → Tally → Stream' Reading → Option (Finish (Stream' Reading))
  | 0, _, _, _ => none
  | n + 1, s, tally, rs =>
    match s.absorb capacity rs.head with
    | .error ending => some ⟨ending, rs.tail, tally.add rs.head⟩
    | .ok s' => collectWithin capacity n s' (tally.add rs.head) rs.tail

/-- Reads a sequence until the staging ends.  There is no result if it does not end. -/
noncomputable def collectFrom (capacity : Nat) (s : Staging) (tally : Tally)
    (rs : Stream' Reading) : Option (Finish (Stream' Reading)) :=
  firstAnswer fun n => collectWithin capacity n s tally rs

section Within

variable {s : Staging} {tally : Tally} {rs : Stream' Reading} {f : Finish (Stream' Reading)}

theorem collectWithin_succ {n : Nat} (h : collectWithin capacity n s tally rs = some f) :
    collectWithin capacity (n + 1) s tally rs = some f := by
  induction n generalizing s tally rs with
  | zero => cases h
  | succ n ih =>
    rw [collectWithin] at h ⊢
    cases hr : s.absorb capacity rs.head with
    | error ending => rw [hr] at h; exact h
    | ok s' => rw [hr] at h; exact ih h

theorem collectFrom_eq_some_iff_within :
    collectFrom capacity s tally rs = some f ↔
      ∃ n, collectWithin capacity n s tally rs = some f := by
  unfold collectFrom
  rw [firstAnswer_eq_some_iff]
  intro n f h
  exact collectWithin_succ h

end Within

theorem collectFrom_eq (s : Staging) (tally : Tally) (rs : Stream' Reading) :
    collectFrom capacity s tally rs =
      match s.absorb capacity rs.head with
      | .error ending => some ⟨ending, rs.tail, tally.add rs.head⟩
      | .ok s' => collectFrom capacity s' (tally.add rs.head) rs.tail := by
  ext f
  rw [collectFrom_eq_some_iff_within]
  constructor
  · rintro ⟨n, hn⟩
    cases n with
    | zero => cases hn
    | succ n =>
      rw [collectWithin] at hn
      cases hr : s.absorb capacity rs.head with
      | error ending => rw [hr] at hn; exact hn
      | ok s' => rw [hr] at hn; exact collectFrom_eq_some_iff_within.mpr ⟨n, hn⟩
  · intro h
    cases hr : s.absorb capacity rs.head with
    | error ending =>
      rw [hr] at h
      exact ⟨1, by rw [collectWithin, hr]; exact h⟩
    | ok s' =>
      rw [hr] at h
      obtain ⟨n, hn⟩ := collectFrom_eq_some_iff_within.mp h
      exact ⟨n + 1, by rw [collectWithin, hr]; exact hn⟩

theorem collectFrom_cons_ok {s s' : Staging} {r : Reading} (h : s.absorb capacity r = .ok s')
    (tally : Tally) (rs : Stream' Reading) :
    collectFrom capacity s tally (Stream'.cons r rs) =
      collectFrom capacity s' (tally.add r) rs := by
  rw [collectFrom_eq, Stream'.head_cons, Stream'.tail_cons, h]

theorem collectFrom_cons_error {s : Staging} {r : Reading} {ending : Ending}
    (h : s.absorb capacity r = .error ending) (tally : Tally) (rs : Stream' Reading) :
    collectFrom capacity s tally (Stream'.cons r rs) = some ⟨ending, rs, tally.add r⟩ := by
  rw [collectFrom_eq, Stream'.head_cons, Stream'.tail_cons, h]

theorem collectFrom_append {s' : Staging} {before : List Reading} :
    ∀ {s : Staging}, s.absorbAll capacity before = .ok s' →
      ∀ (tally : Tally) (rs : Stream' Reading), collectFrom capacity s tally (before ++ₛ rs) =
        collectFrom capacity s' (tally.addAll before) rs := by
  induction before with
  | nil =>
    intro s habsorbed tally rs
    rw [← Except.ok.inj habsorbed]
    rfl
  | cons r before ih =>
    intro s habsorbed tally rs
    obtain ⟨s₁, hr, hbefore⟩ := Staging.absorbAll_cons_eq_ok habsorbed
    rw [Stream'.cons_append_stream, collectFrom_cons_ok hr, ih hbefore, Tally.addAll_cons]

theorem Tally.add_addAll (t : Tally) (rs : List Reading) (r : Reading) :
    (t.addAll rs).add r = t.addAll (rs ++ [r]) := by
  simp only [addAll, add, List.length_append, List.length_singleton, Reading.total_append,
    Reading.total_cons, Reading.total_nil, Tally.mk.injEq]
  omega

theorem Course.collectFrom_eq {s filled : Staging} {before : List Reading} {last : Reading}
    {ending : Ending} (h : Course capacity s (before ++ [last]) before filled last ending)
    (tally : Tally) (rest : Stream' Reading) :
    collectFrom capacity s tally (before ++ [last] ++ₛ rest) =
      some ⟨ending, rest, tally.addAll (before ++ [last])⟩ := by
  rw [Stream'.append_append_stream, collectFrom_append h.absorbed, Stream'.cons_append_stream,
    Stream'.nil_append_stream, collectFrom_cons_error h.ended, Tally.add_addAll]

/-- **A collecting ends** where a course of its readings does. -/
theorem collectFrom_eq_some_iff {s : Staging} {tally : Tally} {rs : Stream' Reading}
    {f : Finish (Stream' Reading)} :
    collectFrom capacity s tally rs = some f ↔
      ∃ before filled last, rs = before ++ [last] ++ₛ f.rest ∧
        Course capacity s (before ++ [last]) before filled last f.ending ∧
        f.tally = tally.addAll (before ++ [last]) := by
  constructor
  · intro h
    -- by induction on a number of readings within which it ends
    obtain ⟨n, hn⟩ := collectFrom_eq_some_iff_within.mp h
    clear h
    induction n generalizing s tally rs with
    | zero => cases hn
    | succ n ih =>
      have hrs : rs = Stream'.cons rs.head rs.tail := (Stream'.eta rs).symm
      rw [collectWithin] at hn
      cases hr : s.absorb capacity rs.head with
      | error ending =>
        rw [hr] at hn
        cases hn
        exact ⟨[], s, rs.head, hrs, Staging.course_list (Staging.absorbAll_nil capacity s) hr, rfl⟩
      | ok s' =>
        rw [hr] at hn
        obtain ⟨before, filled, last, htail, hcourse, htally⟩ := ih hn
        refine ⟨rs.head :: before, filled, last, ?_, Staging.course_list ?_ hcourse.ended, ?_⟩
        · rw [List.cons_append, Stream'.cons_append_stream, ← htail, ← hrs]
        · rw [Staging.absorbAll_cons_ok hr, hcourse.absorbed]
        · rw [htally, List.cons_append, Tally.addAll_cons]
  · rintro ⟨before, filled, last, hrs, hcourse, htally⟩
    rw [hrs, hcourse.collectFrom_eq, ← htally]

/-- A collecting goes on for ever if and only if any number of readings is absorbed. -/
theorem collectFrom_eq_none_iff {s : Staging} {tally : Tally} {rs : Stream' Reading} :
    collectFrom capacity s tally rs = none ↔
      ∀ n, ∃ s', s.absorbAll capacity (rs.take n) = .ok s' := by
  constructor
  · intro h n
    cases hn : s.absorbAll capacity (rs.take n) with
    | ok s' => exact ⟨s', rfl⟩
    | error ending =>
      -- a reading that is not absorbed ends the collecting
      obtain ⟨before, filled, last, later, hsplit, hcourse⟩ :=
        Staging.exists_course_of_absorbAll hn
      have hrs : rs = before ++ [last] ++ₛ (later ++ₛ rs.drop n) := by
        rw [← Stream'.append_append_stream, ← hsplit, Stream'.append_take_drop]
      rw [hrs, hcourse.collectFrom_eq] at h
      cases h
  · intro h
    cases hf : collectFrom capacity s tally rs with
    | none => rfl
    | some f =>
      -- the last reading of its course is not absorbed
      obtain ⟨before, filled, last, hrs, hcourse, -⟩ := collectFrom_eq_some_iff.mp hf
      have hasked : rs.take (before.length + 1) = before ++ [last] := by
        rw [hrs, Stream'.take_append_of_le_length _ _ _ (by simp), List.take_of_length_le (by simp)]
      have hle := (hcourse.absorbAll_take_iff hasked (before.length + 1)).mp (h _)
      omega

/-! ### Loads -/

/-- Loads a program from readings without end.  There is no report if the load does not come to
an end. -/
noncomputable def Memory.loadFrom (m : Memory L) (rs : Stream' Reading) :
    Option (LoadReport L (Stream' Reading)) :=
  (collectFrom L.capacity .start .zero rs).map fun finish =>
    { m.conclude finish.ending with rest := finish.rest, tally := finish.tally }

namespace Memory

/-- A course of readings determines the load from all sequences that begin with them. -/
theorem loadFrom_of_course (m : Memory L) {before : List Reading} {filled : Staging}
    {last : Reading} {ending : Ending}
    (h : Course L.capacity .start (before ++ [last]) before filled last ending)
    (rest : Stream' Reading) :
    m.loadFrom (before ++ [last] ++ₛ rest) =
      some { m.conclude ending with
        rest := rest
        tally := Tally.zero.addAll (before ++ [last]) } := by
  unfold loadFrom
  rw [h.collectFrom_eq, Option.map_some]

/-- A load that comes to an end has a course through the readings that it asked for. -/
theorem exists_course_of_loadFrom {m : Memory L} {rs : Stream' Reading}
    {report : LoadReport L (Stream' Reading)} (h : m.loadFrom rs = some report) :
    ∃ before filled last ending, rs = before ++ [last] ++ₛ report.rest ∧
      Course L.capacity .start (before ++ [last]) before filled last ending ∧
      report.toConclusion = m.conclude ending ∧
      report.tally = Tally.zero.addAll (before ++ [last]) := by
  unfold loadFrom at h
  obtain ⟨f, hf, rfl⟩ := Option.map_eq_some_iff.mp h
  obtain ⟨before, filled, last, hrs, hcourse, htally⟩ := collectFrom_eq_some_iff.mp hf
  exact ⟨before, filled, last, f.ending, hrs, hcourse, rfl, htally⟩

theorem take_reads {rs : Stream' Reading} {report : LoadReport L (Stream' Reading)}
    {asked : List Reading} (hrs : rs = asked ++ₛ report.rest)
    (htally : report.tally = Tally.zero.addAll asked) : rs.take report.tally.reads = asked := by
  have hlength : report.tally.reads = asked.length := by
    rw [htally]
    exact Nat.zero_add _
  rw [hlength, hrs, Stream'.take_append_of_le_length _ _ _ (Nat.le_refl _), List.take_length]

/-- A load from a sequence that comes to an end is the load from any list of its first readings
that is long enough. -/
theorem eq_loadCode_take {m : Memory L} {rs : Stream' Reading}
    {report : LoadReport L (Stream' Reading)} (h : m.loadFrom rs = some report) {n : Nat}
    (hn : report.tally.reads ≤ n) :
    report.toConclusion = (m.loadCode (rs.take n)).toConclusion ∧
      report.tally = (m.loadCode (rs.take n)).tally ∧
      report.rest = rs.drop report.tally.reads := by
  obtain ⟨before, filled, last, ending, hrs, hcourse, hconclusion, htally⟩ :=
    exists_course_of_loadFrom h
  have hreads : report.tally.reads = (before ++ [last]).length := by
    rw [htally]
    exact Nat.zero_add _
  have hfirst := take_reads hrs htally
  -- the course of the load is a course through the longer list as well
  obtain ⟨k, rfl⟩ := Nat.exists_eq_add_of_le hn
  have hlist : Course L.capacity .start (rs.take (report.tally.reads + k)) before filled last
      ending := by
    refine ⟨?_, hcourse.absorbed, hcourse.ended⟩
    rw [Stream'.take_add, hfirst, Source.readings_list, List.append_assoc,
      List.take_append_of_le_length (by simp), List.take_of_length_le (by simp)]
  rw [hlist.loadCode_eq]
  refine ⟨hconclusion, htally, ?_⟩
  rw [hreads, hrs, Stream'.drop_append_stream]

/-- A load from a list of first readings that does not get to the end of the list is the load from
the sequence. -/
theorem loadFrom_eq_loadCode_take {m : Memory L} {rs : Stream' Reading} {n : Nat}
    (h : (m.loadCode (rs.take n)).tally.reads ≤ n) :
    m.loadFrom rs = some { m.loadCode (rs.take n) with
      rest := rs.drop (m.loadCode (rs.take n)).tally.reads } := by
  obtain ⟨before, filled, last, ending, hcourse⟩ := exists_course L.capacity .start (rs.take n)
  have hreads : (m.loadCode (rs.take n)).tally.reads = before.length + 1 := by
    rw [hcourse.loadCode_eq]
    simp [Tally.addAll, Tally.zero]
  rw [hreads] at h ⊢
  have hfirst : rs.take (before.length + 1) = before ++ [last] := by
    rw [← hcourse.readings, Source.readings_list,
      List.take_append_of_le_length (by simpa using h), Stream'.take_take, Nat.min_eq_right h]
  have hlist := Staging.course_list hcourse.absorbed hcourse.ended
  have hload := m.loadFrom_of_course hlist (rs.drop (before.length + 1))
  rw [← hfirst, Stream'.append_take_drop, hfirst] at hload
  rw [hload, hcourse.loadCode_eq]

theorem loadFrom_eq_none_iff (m : Memory L) (rs : Stream' Reading) :
    m.loadFrom rs = none ↔
      ∀ n, ∃ s, Staging.start.absorbAll L.capacity (rs.take n) = .ok s := by
  unfold loadFrom
  rw [Option.map_eq_none_iff, collectFrom_eq_none_iff]

/-- **The load from a source is the load from its readings**, and comes to an end. -/
theorem loadFrom_stream [Source σ] (m : Memory L) (source : σ) :
    m.loadFrom (Source.stream source) =
      some { m.loadCode source with rest := Source.stream (m.loadCode source).rest } := by
  obtain ⟨before, filled, last, ending, hcourse⟩ := exists_course L.capacity .start source
  have hlist := Staging.course_list hcourse.absorbed hcourse.ended
  rw [Source.stream_eq_append (before.length + 1), hcourse.readings, m.loadFrom_of_course hlist,
    hcourse.loadCode_eq]

end Memory

end FlatMemory
