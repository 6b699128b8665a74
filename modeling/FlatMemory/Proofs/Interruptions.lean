import FlatMemory.Proofs.Endless

/-!
# Interruptions make no difference

An interrupted reading is asked for again, and nothing is wiped, staged or forgotten in between.
So a load from a sequence of readings with interruptions put in anywhere does what the load from
the sequence without them does, only with more readings.  Nothing is asked of the readings: if
they report more than they wrote, the bytes that they uncover are the same.

## Main definitions

* `Interruption` — a failure that is an interruption.
* `interspersed gaps rs` — the sequence `rs` with the interruptions `gaps.get n` put in before
  its `n`-th reading.
* `woven gaps rs` — the same for a list.

## Main results

* `interspersed_append` — the interruptions are put in front of one reading after the other.
* `answers_woven`, `Staging.absorbAll_woven` — the answers stay, and so does what is staged.
* `Memory.loadFrom_interspersed` — the load with the interruptions, from the one without.
* `loadFrom_of_interspersed` — **interruptions make no difference.**
-/

namespace FlatMemory

universe u v

variable {L : Layout} {capacity : Nat}

open Reading (answers total)

/-! ### Interruptions put in -/

/-- A failure that is an interruption. -/
abbrev Interruption := { cause : IoError // cause.isInterrupted = true }

/-- Interruptions as readings. -/
def Interruption.readings (gap : List Interruption) : List Reading :=
  gap.map fun i => .failed i.val

/-- The next reading, if `gap` has still to come before the next one of `rs`, and what has to
come after it. -/
def interspersedNext : List Interruption × Stream' (List Interruption) × Stream' Reading →
    Reading × List Interruption × Stream' (List Interruption) × Stream' Reading
  | (i :: gap, gaps, rs) => (.failed i.val, gap, gaps, rs)
  | ([], gaps, rs) => (rs.head, gaps.head, gaps.tail, rs.tail)

/-- The readings of a sequence, with the `n`-th list of interruptions put in before the `n`-th
of them. -/
def interspersed (gaps : Stream' (List Interruption)) (rs : Stream' Reading) :
    Stream' Reading :=
  Stream'.corec' interspersedNext (gaps.head, gaps.tail, rs)

/-- The readings of a list, with the `n`-th list of interruptions put in before the `n`-th of
them. -/
def woven (gaps : Stream' (List Interruption)) : List Reading → List Reading
  | [] => []
  | r :: rs => Interruption.readings gaps.head ++ r :: woven gaps.tail rs

theorem Interruption.isInterrupted_of_mem {gap : List Interruption} {r : Reading}
    (h : r ∈ Interruption.readings gap) : r.isInterrupted = true := by
  obtain ⟨i, -, rfl⟩ := List.mem_map.mp h
  exact i.property

/-- First come the interruptions, then the reading before which they are put in, and then the
rest with its interruptions. -/
theorem interspersed_eq (gaps : Stream' (List Interruption)) (rs : Stream' Reading) :
    interspersed gaps rs = Interruption.readings gaps.head ++ₛ
      Stream'.cons rs.head (interspersed gaps.tail rs.tail) := by
  have hgap : ∀ gap : List Interruption, Stream'.corec' interspersedNext (gap, gaps.tail, rs) =
      Interruption.readings gap ++ₛ Stream'.cons rs.head (interspersed gaps.tail rs.tail) := by
    intro gap
    induction gap with
    | nil =>
      rw [Stream'.corec'_eq]
      rfl
    | cons i gap ih =>
      rw [Stream'.corec'_eq]
      exact congrArg (Stream'.cons (Reading.failed i.val)) ih
  exact hgap gaps.head

/-- The interruptions are put in in front of one reading after the other. -/
theorem interspersed_append (rs : List Reading) (rest : Stream' Reading) :
    ∀ gaps : Stream' (List Interruption), interspersed gaps (rs ++ₛ rest) =
      woven gaps rs ++ₛ interspersed (gaps.drop rs.length) rest := by
  induction rs with
  | nil => intro gaps; rfl
  | cons r rs ih =>
    intro gaps
    rw [interspersed_eq, Stream'.cons_append_stream, Stream'.head_cons, Stream'.tail_cons, ih,
      woven, Stream'.append_append_stream, Stream'.cons_append_stream, List.length_cons,
      Stream'.drop_succ]

theorem interspersed_const_nil (rs : Stream' Reading) :
    interspersed (Stream'.const []) rs = rs := by
  apply Stream'.take_theorem
  intro n
  induction n generalizing rs with
  | zero => rfl
  | succ n ih =>
    have hfirst : interspersed (Stream'.const []) rs =
        Stream'.cons rs.head (interspersed (Stream'.const []) rs.tail) :=
      interspersed_eq (Stream'.const []) rs
    rw [hfirst, Stream'.take_succ_cons, ih, Stream'.take_succ]

/-! ### What interruptions leave as it is -/

theorem woven_append (rs rs' : List Reading) : ∀ gaps : Stream' (List Interruption),
    woven gaps (rs ++ rs') = woven gaps rs ++ woven (gaps.drop rs.length) rs' := by
  induction rs with
  | nil => intro gaps; rfl
  | cons r rs ih =>
    intro gaps
    rw [List.cons_append, woven, ih, woven, List.append_assoc, List.cons_append,
      List.length_cons, Stream'.drop_succ]

theorem length_woven (rs : List Reading) : ∀ gaps : Stream' (List Interruption),
    (woven gaps rs).length = rs.length + (gaps.take rs.length).flatten.length := by
  induction rs with
  | nil => intro gaps; rfl
  | cons r rs ih =>
    intro gaps
    have hgap : (Interruption.readings gaps.head).length = gaps.head.length := List.length_map _
    rw [woven, List.length_append, List.length_cons, ih, List.length_cons, Stream'.take_succ,
      List.flatten_cons, List.length_append, hgap]
    omega

theorem total_woven (rs : List Reading) : ∀ gaps : Stream' (List Interruption),
    total (woven gaps rs) = total rs := by
  have hgap : ∀ gap, total (Interruption.readings gap) = 0 := by
    intro gap
    induction gap with
    | nil => rfl
    | cons i gap ih => exact (Nat.zero_add _).trans ih
  induction rs with
  | nil => intro gaps; rfl
  | cons r rs ih =>
    intro gaps
    rw [woven, Reading.total_append, hgap, Reading.total_cons, ih, Reading.total_cons,
      Nat.zero_add]

theorem answers_woven (rs : List Reading) : ∀ gaps : Stream' (List Interruption),
    answers (woven gaps rs) = answers rs := by
  induction rs with
  | nil => intro gaps; rfl
  | cons r rs ih =>
    intro gaps
    have hgap : answers (Interruption.readings gaps.head) = [] :=
      Reading.answers_eq_nil fun _ => Interruption.isInterrupted_of_mem
    rw [woven, Reading.answers_append, hgap, List.nil_append, ← List.singleton_append,
      Reading.answers_append, ih, ← Reading.answers_append, List.singleton_append]

theorem Staging.absorbAll_interruptions (s : Staging) (gap : List Interruption) :
    s.absorbAll capacity (Interruption.readings gap) = .ok s :=
  s.absorbAll_of_isInterrupted fun _ => Interruption.isInterrupted_of_mem

/-- What is staged stays. -/
theorem Staging.absorbAll_woven (rs : List Reading) :
    ∀ (s : Staging) (gaps : Stream' (List Interruption)),
      s.absorbAll capacity (woven gaps rs) = s.absorbAll capacity rs := by
  induction rs with
  | nil => intro s gaps; rfl
  | cons r rs ih =>
    intro s gaps
    rw [woven, absorbAll_append (s.absorbAll_interruptions gaps.head)]
    cases hr : s.absorb capacity r with
    | error ending => rw [absorbAll_cons_error hr, absorbAll_cons_error hr]
    | ok s' => rw [absorbAll_cons_ok hr, absorbAll_cons_ok hr, ih]

/-- The reading that ends a course still ends it. -/
theorem Course.woven {s filled : Staging} {before : List Reading} {last : Reading}
    {ending : Ending} (h : Course capacity s (before ++ [last]) before filled last ending)
    (gaps : Stream' (List Interruption)) :
    ∃ before', FlatMemory.woven gaps (before ++ [last]) = before' ++ [last] ∧
      Course capacity s (before' ++ [last]) before' filled last ending := by
  let gap := Interruption.readings (gaps.drop before.length).head
  have hsplit : FlatMemory.woven gaps (before ++ [last]) =
      FlatMemory.woven gaps before ++ gap ++ [last] := by
    rw [woven_append, List.append_assoc]
    rfl
  refine ⟨FlatMemory.woven gaps before ++ gap, hsplit, Staging.course_list ?_ h.ended⟩
  have hbefore := h.absorbed
  rw [← Staging.absorbAll_woven before s gaps] at hbefore
  rw [Staging.absorbAll_append hbefore, filled.absorbAll_interruptions]

/-- The first readings with interruptions put in are those of as many readings as they come
from. -/
theorem take_interspersed (gaps : Stream' (List Interruption)) (rs : Stream' Reading)
    {n k : Nat} (h : k ≤ n + (gaps.take n).flatten.length) :
    (interspersed gaps rs).take k = (woven gaps (rs.take n)).take k := by
  have hlength := length_woven (rs.take n) gaps
  rw [Stream'.length_take] at hlength
  have hsplit : interspersed gaps rs =
      woven gaps (rs.take n) ++ₛ interspersed (gaps.drop (rs.take n).length) (rs.drop n) := by
    rw [← interspersed_append, Stream'.append_take_drop]
  rw [hsplit, Stream'.take_append_of_le_length _ _ _ (by omega)]

theorem answers_take_interspersed (gaps : Stream' (List Interruption)) (rs : Stream' Reading)
    (n : Nat) :
    answers ((interspersed gaps rs).take (n + (gaps.take n).flatten.length)) =
      answers (rs.take n) := by
  have hlength := length_woven (rs.take n) gaps
  rw [Stream'.length_take] at hlength
  rw [take_interspersed gaps rs (Nat.le_refl _), List.take_of_length_le (by omega), answers_woven]

/-! ### Loads -/

/-- What a load reports if interruptions are put in.  It has read once more for each of them
that comes before its last reading, and the others come before what is left to read. -/
def LoadReport.interspersed (gaps : Stream' (List Interruption))
    (report : LoadReport L (Stream' Reading)) : LoadReport L (Stream' Reading) :=
  { report with
    rest := FlatMemory.interspersed (gaps.drop report.tally.reads) report.rest
    tally := {
      reads := report.tally.reads + (gaps.take report.tally.reads).flatten.length
      consumed := report.tally.consumed } }

namespace Memory

theorem loadFrom_interspersed_of_eq_none {m : Memory L} {rs : Stream' Reading}
    (h : m.loadFrom rs = none) (gaps : Stream' (List Interruption)) :
    m.loadFrom (interspersed gaps rs) = none := by
  rw [loadFrom_eq_none_iff] at h ⊢
  intro n
  obtain ⟨s, hs⟩ := h n
  rw [← Staging.absorbAll_woven _ _ gaps, ← List.take_append_drop n (woven _ _)] at hs
  obtain ⟨s', hs', -⟩ := Staging.absorbAll_append_eq_ok hs
  refine ⟨s', ?_⟩
  rw [take_interspersed gaps rs (Nat.le_add_right n _), hs']

theorem loadFrom_interspersed_of_eq_some {m : Memory L} {rs : Stream' Reading}
    {report : LoadReport L (Stream' Reading)} (h : m.loadFrom rs = some report)
    (gaps : Stream' (List Interruption)) :
    m.loadFrom (interspersed gaps rs) = some (report.interspersed gaps) := by
  obtain ⟨conclusion, rest, tally⟩ := report
  obtain ⟨before, filled, last, ending, hrs, hcourse, rfl, rfl⟩ := exists_course_of_loadFrom h
  obtain ⟨before', hwoven, hcourse'⟩ := hcourse.woven gaps
  have hlength := length_woven (before ++ [last]) gaps
  have htotal := total_woven (before ++ [last]) gaps
  rw [hrs, interspersed_append, hwoven, m.loadFrom_of_course hcourse']
  rw [hwoven] at hlength htotal
  simp only [LoadReport.interspersed, Tally.addAll, Tally.zero, hlength, htotal, Nat.zero_add]

/-- The load with interruptions, from the one without them. -/
theorem loadFrom_interspersed (m : Memory L) (gaps : Stream' (List Interruption))
    (rs : Stream' Reading) :
    m.loadFrom (interspersed gaps rs) =
      (m.loadFrom rs).map (LoadReport.interspersed gaps) := by
  cases h : m.loadFrom rs with
  | none => rw [loadFrom_interspersed_of_eq_none h, Option.map_none]
  | some report => rw [loadFrom_interspersed_of_eq_some h, Option.map_some]

theorem loadCode_interspersed {σ : Type u} {σ' : Type v} [Source σ] [Source σ'] (m : Memory L)
    {gaps : Stream' (List Interruption)} {source : σ} {source' : σ'}
    (h : Source.stream source' = interspersed gaps (Source.stream source)) :
    (m.loadCode source').toConclusion = (m.loadCode source).toConclusion ∧
      Source.stream (m.loadCode source').rest =
        interspersed (gaps.drop (m.loadCode source).tally.reads)
          (Source.stream (m.loadCode source).rest) ∧
      (m.loadCode source').tally =
        ⟨(m.loadCode source).tally.reads +
            (gaps.take (m.loadCode source).tally.reads).flatten.length,
          (m.loadCode source).tally.consumed⟩ := by
  have hload := m.loadFrom_interspersed gaps (Source.stream source)
  rw [← h, loadFrom_stream, loadFrom_stream, Option.map_some] at hload
  exact LoadReport.mk.inj (Option.some.inj hload)

end Memory

/-- **Interruptions make no difference.**  Put any interruptions in before each of some readings,
a finite number in every place.  Then the load from the readings has the same answer, the same
memory and the same log as without the interruptions, and has been told of as many bytes; if it
did not come to an end, it still does not.  It has asked once more for each of the interruptions
before its last reading, and the others stand before what it has left to read, of which the
answers are the same.  If both sequences are those of sources, this holds of the loads from the
sources. -/
theorem loadFrom_of_interspersed (m : Memory L) (gaps : Stream' (List Interruption)) :
    (∀ rs, m.loadFrom (interspersed gaps rs) = (m.loadFrom rs).map fun report =>
      { report with
        rest := interspersed (gaps.drop report.tally.reads) report.rest
        tally := {
          reads := report.tally.reads + (gaps.take report.tally.reads).flatten.length
          consumed := report.tally.consumed } }) ∧
    (∀ rs report report', m.loadFrom rs = some report →
      m.loadFrom (interspersed gaps rs) = some report' →
        ∀ n, ∃ n', n ≤ n' ∧ answers (report'.rest.take n') = answers (report.rest.take n)) ∧
    ∀ {σ : Type u} {σ' : Type v} [Source σ] [Source σ'] (source : σ) (source' : σ'),
      Source.stream source' = interspersed gaps (Source.stream source) →
        let r := m.loadCode source
        let r' := m.loadCode source'
        r'.toConclusion = r.toConclusion ∧
          r'.tally.consumed = r.tally.consumed ∧
          r'.tally.reads = r.tally.reads + (gaps.take r.tally.reads).flatten.length ∧
          Source.stream r'.rest =
            interspersed (gaps.drop r.tally.reads) (Source.stream r.rest) := by
  refine ⟨fun rs => m.loadFrom_interspersed gaps rs, ?_, ?_⟩
  · intro rs report report' h h' n
    rw [m.loadFrom_interspersed_of_eq_some h gaps] at h'
    obtain rfl := Option.some.inj h'
    exact ⟨_, Nat.le_add_right n _, answers_take_interspersed _ report.rest n⟩
  · intro σ σ' _ _ source source' h r r'
    obtain ⟨hconclusion, hrest, htally⟩ := m.loadCode_interspersed h
    have hreads := congrArg Tally.reads htally
    have hconsumed := congrArg Tally.consumed htally
    exact ⟨hconclusion, hconsumed, hreads, hrest⟩

/-- The second of three reports uncovers a byte of the first, and is cut behind it.  An
interruption before the first and two before the second leave that byte where it was, and one
before the third leaves the third to be read. -/
theorem loadFrom_of_interspersed_uncovering :
    let L : Layout := { ram := 5, stack := 1 }
    let m := Memory.zeroed L
    let i : Interruption := ⟨.plain .interrupted, rfl⟩
    let gaps := [[i], [i, i], [i]] ++ₛ Stream'.const []
    let rs : List Reading := [.got 2 [1, 2], .got 3 [9], .got 1 [7]]
    let rs' : List Reading :=
      [.failed i.val, .got 2 [1, 2], .failed i.val, .failed i.val, .got 3 [9], .failed i.val,
        .got 1 [7]]
    Source.stream rs' = interspersed gaps (Source.stream rs) ∧
      (m.loadCode rs').outcome = .error (.failure (.tooLarge 4)) ∧
      (m.loadCode rs').memory = ⟨#v[0, 1, 2, 9, 2], 4⟩ ∧ (m.loadCode rs').tally = ⟨5, 5⟩ ∧
      ∃ n, 1 ≤ n ∧ answers ((Source.stream (m.loadCode rs').rest).take n) = [.got 1 [7]] := by
  intro L m i gaps rs rs'
  have hgaps : Source.stream rs' = interspersed gaps (Source.stream rs) := by
    rw [Source.stream_list, Source.stream_list, interspersed_append]
    show rs' ++ₛ _ = rs' ++ₛ interspersed (Stream'.const []) _
    rw [interspersed_const_nil]
  have hcourse : Course L.capacity .start rs [.got 2 [1, 2]]
      ⟨#[1, 2], Chunk.zeroed.overwrite [1, 2]⟩ (.got 3 [9]) (.truncated #[1, 2, 9, 2]) :=
    ⟨rfl, rfl, rfl⟩
  have hload := hcourse.loadCode_eq m
  have hfrom := m.loadFrom_stream rs'
  rw [hgaps] at hfrom
  obtain ⟨-, hleft, hsources⟩ := loadFrom_of_interspersed m gaps
  obtain ⟨n, hn, hanswers⟩ := hleft _ _ _ (m.loadFrom_stream rs) hfrom 1
  obtain ⟨hconclusion, hconsumed, hreads, -⟩ := hsources rs rs' hgaps
  rw [hload] at hconclusion hconsumed hreads hanswers
  refine ⟨hgaps, congrArg Conclusion.outcome hconclusion, ?_, congrArg₂ Tally.mk hreads hconsumed,
    n, hn, hanswers⟩
  exact (congrArg Conclusion.memory hconclusion).trans rfl

end FlatMemory
