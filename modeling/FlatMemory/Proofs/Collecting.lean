import FlatMemory.Loading
import FlatMemory.Proofs.Readings

/-!
# The course of a load

A load asks for readings until one of them ends it.  Its course is the readings before
that one, each of which was absorbed, the staging that they lead to, and the reading that
decides.  Everything that a load does is a fact about its course.

## Main definitions

* `Staging.room` — the bytes that can still be staged.
* `Staging.absorbAll` — absorbs readings one after the other.
* `Course` — the readings of a load, and how they end it.

## Main results

* `Staging.absorb_error` — the four readings that end the collecting, and how.
* `Staging.absorbAll_induction` — what one more reading keeps, any number of readings keeps.
* `Staging.Tracks.absorbAll` — the loop invariant: what is staged is as long as what
  was reported, it fits, and every report was between one and sixty-four bytes.
* `collect_of_absorbAll` — the collecting goes on behind readings that were absorbed.
* `Course.collect_eq`, `exists_course` — a course determines the end of a collecting, and
  every collecting has one.
* `Course.size_of_complete`, `Course.size_of_truncated` — collected code fits, and code that
  was cut fills the room.
* `Staging.staged_absorbAll` — of honest readings the staged bytes are those delivered.
-/

namespace FlatMemory

universe u

variable {σ : Type u} {L : Layout}

open Reading (total)

namespace Staging

def room (capacity : Nat) (s : Staging) : Nat :=
  capacity - s.staged.size

/-! ### One reading -/

theorem absorb_nothing (capacity : Nat) (s : Staging) (w : List UInt8) :
    s.absorb capacity (.got 0 w) = .error (.complete s.staged) := rfl

theorem absorb_overrun {capacity n : Nat} {s : Staging} (w : List UInt8)
    (h : chunkSize < min n (s.room capacity)) :
    s.absorb capacity (.got n w) = .error (.overrun (min n (s.room capacity))) := by
  have hn : ¬n = 0 := by omega
  unfold room at h ⊢
  simp only [absorb]
  rw [if_neg hn, if_pos h]

theorem absorb_truncated {capacity n : Nat} {s : Staging} (w : List UInt8)
    (hroom : s.room capacity < n) (hchunk : s.room capacity ≤ chunkSize) :
    s.absorb capacity (.got n w) =
      .error (.truncated
        (s.staged ++ (s.chunk.overwrite w).front (s.room capacity))) := by
  have hn : ¬n = 0 := by omega
  have hmin : min n (s.room capacity) = s.room capacity := by omega
  unfold room at hroom hchunk hmin ⊢
  simp only [absorb]
  rw [if_neg hn, hmin, if_neg (Nat.not_lt.mpr hchunk), if_pos hroom]

theorem absorb_taken {capacity n : Nat} {s : Staging} (w : List UInt8) (hpos : 1 ≤ n)
    (hchunk : n ≤ chunkSize) (hroom : n ≤ s.room capacity) :
    s.absorb capacity (.got n w) =
      .ok ⟨s.staged ++ (s.chunk.overwrite w).front n, s.chunk.overwrite w⟩ := by
  have hn : ¬n = 0 := by omega
  have hmin : min n (s.room capacity) = n := by omega
  unfold room at hroom hmin
  simp only [absorb]
  rw [if_neg hn, hmin, if_neg (Nat.not_lt.mpr hchunk), if_neg (Nat.not_lt.mpr hroom)]

/-- A report of at least one byte overruns the chunk, truncates the program or is taken. -/
theorem report_cases (capacity : Nat) (s : Staging) {n : Nat} (hpos : 1 ≤ n) :
    chunkSize < min n (s.room capacity) ∨
      (s.room capacity < n ∧ s.room capacity ≤ chunkSize) ∨
      (1 ≤ n ∧ n ≤ chunkSize ∧ n ≤ s.room capacity) := by
  omega

/-- How a reading ends the collecting. -/
theorem absorb_error {capacity : Nat} {s : Staging} {r : Reading} {e : Ending}
    (h : s.absorb capacity r = .error e) :
    (∃ w, r = .got 0 w ∧ e = .complete s.staged) ∨
      (∃ n w, r = .got n w ∧ s.room capacity < n ∧ s.room capacity ≤ chunkSize ∧
        e = .truncated (s.staged ++ (s.chunk.overwrite w).front (s.room capacity))) ∨
      (∃ cause, r = .failed cause ∧ cause.isInterrupted = false ∧ e = .broken cause) ∨
      (∃ n w, r = .got n w ∧ chunkSize < min n (s.room capacity) ∧
        e = .overrun (min n (s.room capacity))) := by
  cases r with
  | failed cause =>
    rw [absorb_failed] at h
    cases hi : cause.isInterrupted with
    | true => rw [hi, if_pos rfl] at h; cases h
    | false =>
      rw [hi, if_neg (by decide)] at h
      exact .inr (.inr (.inl ⟨cause, rfl, hi, (Except.error.inj h).symm⟩))
  | got n w =>
    rcases Nat.eq_zero_or_pos n with rfl | hpos
    · rw [absorb_nothing] at h
      exact .inl ⟨w, rfl, (Except.error.inj h).symm⟩
    · rcases report_cases capacity s hpos with hover | ⟨hroom, hchunk⟩ | ⟨-, hchunk, hroom⟩
      · rw [absorb_overrun w hover] at h
        exact .inr (.inr (.inr ⟨n, w, rfl, hover, (Except.error.inj h).symm⟩))
      · rw [absorb_truncated w hroom hchunk] at h
        exact .inr (.inl ⟨n, w, rfl, hroom, hchunk, (Except.error.inj h).symm⟩)
      · rw [absorb_taken w hpos hchunk hroom] at h
        cases h

theorem lt_of_absorb_overrun {capacity : Nat} {s : Staging} {r : Reading} {index : Nat}
    (h : s.absorb capacity r = .error (.overrun index)) : chunkSize < index := by
  rcases absorb_error h with ⟨w, -, he⟩ | ⟨n, w, -, -, -, he⟩ | ⟨cause, -, -, he⟩ |
    ⟨n, w, -, hover, he⟩
  · cases he
  · cases he
  · cases he
  · cases he
    exact hover

theorem size_le_of_absorb {capacity : Nat} {s s' : Staging} {r : Reading}
    (fits : s.staged.size ≤ capacity) (h : s.absorb capacity r = .ok s') :
    s'.staged.size ≤ capacity := by
  have hsize := size_staged_absorb h
  rcases absorb_ok h with ⟨-, rfl⟩ | ⟨n, w, rfl, -, -, hroom, -⟩
  · exact fits
  · rw [Reading.count_got] at hsize
    omega

theorem isFinal_of_absorb {capacity : Nat} {s s' : Staging} {r : Reading}
    (h : s.absorb capacity r = .ok s') : r.isFinal = false := by
  rcases absorb_ok h with ⟨hi, -⟩ | ⟨n, w, rfl, hpos, -⟩
  · cases r with
    | got n w => simp at hi
    | failed cause =>
      have hcause : cause.isInterrupted = true := hi
      simp [Reading.isFinal, hcause]
  · have hn : n ≠ 0 := by omega
    simp [Reading.isFinal, hn]

/-! ### Several readings -/

/-- Absorbs readings one after the other; the first that ends the collecting is the last
that counts. -/
def absorbAll (capacity : Nat) (s : Staging) : List Reading → Except Ending Staging
  | [] => .ok s
  | r :: rs =>
    match s.absorb capacity r with
    | .error e => .error e
    | .ok s' => s'.absorbAll capacity rs

@[simp] theorem absorbAll_nil (capacity : Nat) (s : Staging) :
    s.absorbAll capacity [] = .ok s := rfl

theorem absorbAll_cons_ok {capacity : Nat} {s s' : Staging} {r : Reading}
    (h : s.absorb capacity r = .ok s') (rs : List Reading) :
    s.absorbAll capacity (r :: rs) = s'.absorbAll capacity rs := by
  rw [absorbAll, h]

theorem absorbAll_cons_error {capacity : Nat} {s : Staging} {r : Reading} {e : Ending}
    (h : s.absorb capacity r = .error e) (rs : List Reading) :
    s.absorbAll capacity (r :: rs) = .error e := by
  rw [absorbAll, h]

theorem absorbAll_cons_eq_ok {capacity : Nat} {s s'' : Staging} {r : Reading}
    {rs : List Reading} (h : s.absorbAll capacity (r :: rs) = .ok s'') :
    ∃ s', s.absorb capacity r = .ok s' ∧ s'.absorbAll capacity rs = .ok s'' := by
  cases hr : s.absorb capacity r with
  | error e => rw [absorbAll_cons_error hr] at h; cases h
  | ok s' => rw [absorbAll_cons_ok hr] at h; exact ⟨s', rfl, h⟩

theorem absorbAll_append_eq_ok {capacity : Nat} {rs rs' : List Reading} :
    ∀ {s s'' : Staging}, s.absorbAll capacity (rs ++ rs') = .ok s'' →
      ∃ s', s.absorbAll capacity rs = .ok s' ∧ s'.absorbAll capacity rs' = .ok s'' := by
  induction rs with
  | nil => intro s s'' h; exact ⟨s, rfl, h⟩
  | cons r rs ih =>
    intro s s'' h
    obtain ⟨s₁, hr, hrest⟩ := absorbAll_cons_eq_ok h
    obtain ⟨s₂, hrs, hrs'⟩ := ih hrest
    exact ⟨s₂, by rw [absorbAll_cons_ok hr, hrs], hrs'⟩

/-- What holds of a staging and the readings that led to it holds after any number of readings
more, if it does after one. -/
theorem absorbAll_induction {capacity : Nat} {P : Staging → List Reading → Prop}
    (hstep : ∀ {s s' : Staging} {rs : List Reading} {r : Reading}, P s rs →
      s.absorb capacity r = .ok s' → P s' (rs ++ [r])) {rs' : List Reading} :
    ∀ {s s' : Staging} {rs : List Reading}, P s rs →
      s.absorbAll capacity rs' = .ok s' → P s' (rs ++ rs') := by
  induction rs' with
  | nil =>
    intro s s' rs h hrs
    rw [absorbAll_nil] at hrs
    rw [List.append_nil, ← Except.ok.inj hrs]
    exact h
  | cons r rs' ih =>
    intro s s' rs h hrs
    obtain ⟨s₁, hr, hrest⟩ := absorbAll_cons_eq_ok hrs
    rw [List.append_cons]
    exact ih (hstep h hr) hrest

/-- **The loop invariant.**  The readings `rs` led to the staging: it holds as many bytes
as they reported, there was room for all of them, and none is final or reported more than
a chunk. -/
structure Tracks (capacity : Nat) (s : Staging) (rs : List Reading) : Prop where
  size : s.staged.size = total rs
  fits : total rs ≤ capacity
  notFinal : ∀ r ∈ rs, r.isFinal = false
  count_le : ∀ r ∈ rs, r.count ≤ chunkSize

theorem tracks_start (capacity : Nat) : Tracks capacity start [] where
  size := rfl
  fits := Nat.zero_le capacity
  notFinal := by simp
  count_le := by simp

theorem Tracks.room_eq {capacity : Nat} {s : Staging} {rs : List Reading}
    (h : s.Tracks capacity rs) : s.room capacity = capacity - total rs := by
  rw [room, h.size]

theorem Tracks.size_le {capacity : Nat} {s : Staging} {rs : List Reading}
    (h : s.Tracks capacity rs) : s.staged.size ≤ capacity := by
  rw [h.size]
  exact h.fits

theorem Tracks.isInterrupted_or_count {capacity : Nat} {s : Staging} {rs : List Reading}
    {r : Reading} (h : s.Tracks capacity rs) (hr : r ∈ rs) :
    r.isInterrupted = true ∨ (1 ≤ r.count ∧ r.count ≤ chunkSize) := by
  have hcount := h.count_le r hr
  have hnext := h.notFinal r hr
  cases r with
  | failed cause =>
    left
    simpa [Reading.isFinal] using hnext
  | got n w =>
    right
    have hn : n ≠ 0 := by simpa [Reading.isFinal] using hnext
    exact ⟨Nat.pos_of_ne_zero hn, hcount⟩

theorem Tracks.absorb {capacity : Nat} {s s' : Staging} {rs : List Reading} {r : Reading}
    (h : s.Tracks capacity rs) (hr : s.absorb capacity r = .ok s') :
    s'.Tracks capacity (rs ++ [r]) := by
  have hsize := size_staged_absorb hr
  have hbound : r.count ≤ chunkSize ∧ r.count ≤ capacity - s.staged.size := by
    rcases absorb_ok hr with ⟨hi, -⟩ | ⟨n, w, rfl, -, hchunk, hroom, -⟩
    · cases r with
      | got n w => simp at hi
      | failed cause => exact ⟨Nat.zero_le _, Nat.zero_le _⟩
    · exact ⟨hchunk, hroom⟩
  have htotal : total (rs ++ [r]) = total rs + r.count := by simp
  -- the counted bytes and the bound are sums; the other two ask about each reading
  have hfits := h.fits
  have hcounted := h.size
  refine ⟨by omega, by omega, ?_, ?_⟩
  · intro x hx
    rcases List.mem_append.mp hx with hx | hx
    · exact h.notFinal x hx
    · rw [List.mem_singleton.mp hx]; exact isFinal_of_absorb hr
  · intro x hx
    rcases List.mem_append.mp hx with hx | hx
    · exact h.count_le x hx
    · rw [List.mem_singleton.mp hx]; exact hbound.1

/-- **Absorbing keeps the invariant**, however many readings there are. -/
theorem Tracks.absorbAll {capacity : Nat} {s s' : Staging} {rs rs' : List Reading}
    (h : s.Tracks capacity rs) (hrs : s.absorbAll capacity rs' = .ok s') :
    s'.Tracks capacity (rs ++ rs') :=
  absorbAll_induction (P := Tracks capacity) (fun h hr => h.absorb hr) h hrs

theorem tracks_of_absorbAll {capacity : Nat} {s : Staging} {rs : List Reading}
    (h : start.absorbAll capacity rs = .ok s) : s.Tracks capacity rs :=
  (tracks_start capacity).absorbAll h

end Staging

/-! ### Courses -/

/-- The course of a collecting that starts with the staging `s`: the readings `before` are
absorbed and lead to `filled`, and the reading `last` ends the collecting. -/
structure Course [Source σ] (capacity : Nat) (s : Staging) (source : σ)
    (before : List Reading) (filled : Staging) (last : Reading) (ending : Ending) : Prop where
  readings : Source.readings (before.length + 1) source = before ++ [last]
  absorbed : s.absorbAll capacity before = .ok filled
  ended : filled.absorb capacity last = .error ending

def Tally.addAll (t : Tally) (rs : List Reading) : Tally :=
  ⟨t.reads + rs.length, t.consumed + total rs⟩

@[simp] theorem Tally.addAll_nil (t : Tally) : t.addAll [] = t := rfl

theorem Tally.addAll_cons (t : Tally) (r : Reading) (rs : List Reading) :
    t.addAll (r :: rs) = (t.add r).addAll rs := by
  simp only [addAll, add, List.length_cons, Reading.total_cons, Tally.mk.injEq]
  omega

/-- The collecting goes on behind readings that were absorbed. -/
theorem collect_of_absorbAll [Source σ] {capacity : Nat} {s' : Staging} {rs : List Reading} :
    ∀ {s : Staging} {source : σ}, s.absorbAll capacity rs = .ok s' →
      Source.readings rs.length source = rs → ∀ tally : Tally,
        collect capacity s tally source =
          collect capacity s' (tally.addAll rs) (Source.after rs.length source) := by
  -- the first reading takes the collecting on to the staging and the source that it leaves
  induction rs with
  | nil =>
    intro s source habsorbed _ tally
    rw [← Except.ok.inj habsorbed]
    rfl
  | cons r rs ih =>
    intro s source habsorbed hreadings tally
    have hfirst : (Source.read source).1 = r := List.head_eq_of_cons_eq hreadings
    have hrest := List.tail_eq_of_cons_eq hreadings
    obtain ⟨s₁, hr, hrs⟩ := Staging.absorbAll_cons_eq_ok habsorbed
    rw [FlatMemory.collect_eq, hfirst, hr, Tally.addAll_cons]
    exact ih hrs hrest (tally.add r)

section Readings

variable [Source σ] {capacity : Nat} {s : Staging} {source : σ} {before : List Reading}
  {filled : Staging} {last : Reading} {ending : Ending}

/-- The readings of a course apart: those before the last, and the last one. -/
theorem Course.split (h : Course capacity s source before filled last ending) :
    Source.readings before.length source = before ∧
      (Source.read (Source.after before.length source)).1 = last := by
  have hreadings := h.readings
  rw [Source.readings_add] at hreadings
  obtain ⟨hbefore, hlast⟩ := List.append_inj' hreadings rfl
  exact ⟨hbefore, List.head_eq_of_cons_eq hlast⟩

/-- **A course determines the end of a collecting**, what is left of the source, and the
tally. -/
theorem Course.collect_eq (h : Course capacity s source before filled last ending)
    (tally : Tally) : collect capacity s tally source =
      ⟨ending, Source.after (before.length + 1) source, tally.addAll (before ++ [last])⟩ := by
  obtain ⟨hbefore, hlast⟩ := h.split
  rw [collect_of_absorbAll h.absorbed hbefore, FlatMemory.collect_eq, hlast, h.ended,
    Source.after_add]
  simp only [Tally.addAll, Tally.add, List.length_append, List.length_singleton,
    Reading.total_append, Reading.total_cons, Reading.total_nil, Finish.mk.injEq,
    Tally.mk.injEq, true_and]
  exact ⟨rfl, by omega, by omega⟩

end Readings

/-- Every collecting has a course. -/
theorem exists_course [Source σ] (capacity : Nat) (s : Staging) (source : σ) :
    ∃ before filled last ending, Course capacity s source before filled last ending := by
  -- the recursion is that of the collecting itself, with the same measure
  match hstep : s.absorb capacity (Source.read source).1 with
  | .error ending => exact ⟨[], s, (Source.read source).1, ending, rfl, rfl, hstep⟩
  | .ok s' =>
    obtain ⟨before, filled, last, ending, hreadings, habsorbed, hended⟩ :=
      exists_course capacity s' (Source.read source).2
    refine ⟨(Source.read source).1 :: before, filled, last, ending, ?_, ?_, hended⟩
    · rw [List.length_cons, Source.readings_succ, hreadings, List.cons_append]
    · rw [Staging.absorbAll_cons_ok hstep, habsorbed]
termination_by (capacity - s.staged.size, Source.patience source)
decreasing_by exact lex_of_absorb hstep

theorem Course.loadCode_eq [Source σ] {source : σ} {before : List Reading} {filled : Staging}
    {last : Reading} {ending : Ending}
    (h : Course L.capacity .start source before filled last ending) (m : Memory L) :
    m.loadCode source =
      { m.conclude ending with
        rest := Source.after (before.length + 1) source
        tally := Tally.zero.addAll (before ++ [last]) } := by
  unfold Memory.loadCode
  rw [h.collect_eq]

/-! ### The code of an ending -/

section Code

variable [Source σ] {capacity : Nat} {source : σ} {before : List Reading} {filled : Staging}
  {last : Reading} {code : Array UInt8}

theorem Course.size_of_complete
    (h : Course capacity .start source before filled last (.complete code)) :
    code.size ≤ capacity := by
  have htracks := Staging.tracks_of_absorbAll h.absorbed
  have hsize := htracks.size
  have hfits := htracks.fits
  rcases Staging.absorb_error h.ended with ⟨w, -, he⟩ | ⟨n, w, -, -, -, he⟩ |
    ⟨cause, -, -, he⟩ | ⟨n, w, -, -, he⟩
  · cases he
    omega
  · cases he
  · cases he
  · cases he

theorem Course.size_of_truncated
    (h : Course capacity .start source before filled last (.truncated code)) :
    code.size = capacity := by
  have htracks := Staging.tracks_of_absorbAll h.absorbed
  have hsize := htracks.size
  have hfits := htracks.fits
  have hroom := htracks.room_eq
  rcases Staging.absorb_error h.ended with ⟨w, -, he⟩ | ⟨n, w, -, -, hchunk, he⟩ |
    ⟨cause, -, -, he⟩ | ⟨n, w, -, -, he⟩
  · cases he
  · cases he
    rw [Array.size_append, Chunk.size_front]
    omega
  · cases he
  · cases he

end Code

/-! ### Honest readings -/

namespace Staging

theorem toList_front_overwrite (chunk : Chunk) {w : List UInt8} {n : Nat}
    (hw : n ≤ w.length) (hn : n ≤ chunkSize) :
    ((chunk.overwrite w).front n).toList = w.take n := by
  apply List.ext_getElem
  · simp only [Array.length_toList, Chunk.size_front, List.length_take]
    omega
  · intro i hi hi'
    have hin : i < n := by rw [List.length_take] at hi'; omega
    have hic : i < chunkSize := by omega
    have hiw : i < w.length := by omega
    have hget := Chunk.getElem_overwrite chunk w i hic
    rw [dif_pos hiw] at hget
    simpa [Chunk.front] using hget

theorem staged_absorb {capacity : Nat} {s s' : Staging} {r : Reading} (hr : r.Honest)
    (h : s.absorb capacity r = .ok s') :
    s'.staged.toList = s.staged.toList ++ r.bytes := by
  rcases absorb_ok h with ⟨hi, rfl⟩ | ⟨n, w, rfl, -, hchunk, -, rfl⟩
  · cases r with
    | got n w => simp at hi
    | failed cause => simp [Reading.bytes]
  · rw [Array.toList_append, toList_front_overwrite s.chunk hr.1 hchunk]
    rfl

/-- What honest readings deliver is staged, in their order. -/
theorem staged_absorbAll {capacity : Nat} {rs : List Reading} :
    ∀ {s s' : Staging}, (∀ r ∈ rs, r.Honest) → s.absorbAll capacity rs = .ok s' →
      s'.staged.toList = s.staged.toList ++ rs.flatMap Reading.bytes := by
  induction rs with
  | nil =>
    intro s s' _ h
    rw [absorbAll_nil] at h
    rw [← Except.ok.inj h]
    simp
  | cons r rs ih =>
    intro s s' honest h
    obtain ⟨s₁, hr, hrs⟩ := absorbAll_cons_eq_ok h
    have hfirst := staged_absorb (honest r List.mem_cons_self) hr
    have hrest := ih (fun x hx => honest x (List.mem_cons_of_mem r hx)) hrs
    rw [hrest, hfirst, List.flatMap_cons, List.append_assoc]

end Staging

section Honest

variable [Source σ] {capacity : Nat} {source : σ} {before : List Reading} {filled : Staging}
  {last : Reading} {ending : Ending}

theorem Course.honest (h : Course capacity .start source before filled last ending)
    (honest : Source.Honest source) : (∀ r ∈ before, r.Honest) ∧ last.Honest := by
  have hall : ∀ r ∈ before ++ [last], r.Honest := by
    rw [← h.readings]
    exact honest (before.length + 1)
  exact ⟨fun r hr => hall r (List.mem_append_left _ hr), hall last (by simp)⟩

/-- What is staged when the last reading comes is what the earlier ones delivered. -/
theorem Course.toList_staged (h : Course capacity .start source before filled last ending)
    (honest : Source.Honest source) :
    filled.staged.toList = before.flatMap Reading.bytes := by
  have hstaged := Staging.staged_absorbAll (h.honest honest).1 h.absorbed
  rw [Staging.staged_start] at hstaged
  exact hstaged

/-- A course delivers what the readings before the last deliver, and then what the rest
delivers. -/
theorem Course.delivered_eq (h : Course capacity .start source before filled last ending)
    (tail : List Reading) :
    Reading.delivered (before ++ last :: tail) =
      before.flatMap Reading.bytes ++ Reading.delivered (last :: tail) :=
  Reading.delivered_append (Staging.tracks_of_absorbAll h.absorbed).notFinal _

theorem Course.final_eq (h : Course capacity .start source before filled last ending)
    (tail : List Reading) :
    Reading.final (before ++ last :: tail) = Reading.final (last :: tail) :=
  Reading.final_append (Staging.tracks_of_absorbAll h.absorbed).notFinal _

end Honest

end FlatMemory
