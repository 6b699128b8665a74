import FlatMemory.Proofs.Committed

/-!
# The same source and more room

Two loads read the same source, and the second has at least as much room as the first.  As
long as the first goes on, so does the second, and both have staged the same bytes.  They can
part only where the room of the first runs out: the second may then be cut later, overrun its
chunk, fail, or come to the end of the program.  Nothing is asked of the source.

## Main definitions

* `Finish.Grows` — how the end of a collecting changes if there is more room.
* `LoadReport.SameReading` — two loads ended at the same reading.
* `LoadReport.Widens` — how the report of a load changes if there is more room.

## Main results

* `Staging.absorbAll_of_le` — what is absorbed is absorbed with more room as well.
* `Staging.grows_of_error` — the two loads at the reading that ends the first.
* `collect_grows` — the two collectings.
* `Memory.collected_eq_take` — the codes of the two, if both are committed.
* `loadCode_of_capacity_le`, `Memory.loadFrom_of_capacity_le` — **the two loads.**
-/

namespace FlatMemory

universe u v

variable {σ : Type u} {L L' : Layout}

/-! ### Readings with more room -/

section Room

variable {capacity capacity' : Nat}

namespace Chunk

theorem prefix_front (chunk : Chunk) {i j : Nat} (h : i ≤ j) :
    (chunk.front i).toList <+: (chunk.front j).toList := by
  have htake : (chunk.front i).toList = (chunk.front j).toList.take i := by
    simp [front, List.take_take, Nat.min_eq_left h]
  rw [htake]
  exact List.take_prefix i _

end Chunk

namespace Staging

theorem absorb_of_le (h : capacity ≤ capacity') {s s' : Staging} {r : Reading}
    (hr : s.absorb capacity r = .ok s') : s.absorb capacity' r = .ok s' := by
  rcases absorb_ok hr with ⟨hi, rfl⟩ | ⟨n, w, rfl, hpos, hchunk, hroom, rfl⟩
  · cases r with
    | got n w => simp at hi
    | failed cause =>
      rw [Reading.isInterrupted_failed] at hi
      rw [absorb_failed, if_pos hi]
  · have hroom' : n ≤ s.room capacity' := by
      unfold room
      omega
    exact absorb_taken w hpos hchunk hroom'

theorem absorbAll_of_le (h : capacity ≤ capacity') {rs : List Reading} :
    ∀ {s s' : Staging}, s.absorbAll capacity rs = .ok s' → s.absorbAll capacity' rs = .ok s' := by
  induction rs with
  | nil => intro s s' hrs; exact hrs
  | cons r rs ih =>
    intro s s' hrs
    obtain ⟨s₁, hr, hrest⟩ := absorbAll_cons_eq_ok hrs
    rw [absorbAll_cons_ok (absorb_of_le h hr)]
    exact ih hrest

theorem prefix_absorb {s s' : Staging} {r : Reading} (h : s.absorb capacity r = .ok s') :
    s.staged.toList <+: s'.staged.toList := by
  rcases absorb_ok h with ⟨-, rfl⟩ | ⟨n, w, -, -, -, -, rfl⟩
  · exact List.prefix_refl _
  · rw [Array.toList_append]
    exact List.prefix_append _ _

theorem prefix_absorbAll {rs : List Reading} : ∀ {s s' : Staging},
    s.absorbAll capacity rs = .ok s' → s.staged.toList <+: s'.staged.toList := by
  induction rs with
  | nil =>
    intro s s' h
    obtain rfl : s = s' := Except.ok.inj h
    exact List.prefix_refl _
  | cons r rs ih =>
    intro s s' h
    obtain ⟨s₁, hr, hrs⟩ := absorbAll_cons_eq_ok h
    exact (prefix_absorb hr).trans (ih hrs)

theorem prefix_of_error {s : Staging} {r : Reading} {e : Ending}
    (h : s.absorb capacity r = .error e) (he : e.Commits) : s.staged.toList <+: e.code := by
  rcases absorb_error h with ⟨w, -, rfl⟩ | ⟨n, w, -, -, -, rfl⟩ | ⟨cause, -, -, rfl⟩ |
    ⟨n, w, -, -, rfl⟩
  · exact List.prefix_refl _
  · show _ <+: (s.staged ++ _).toList
    rw [Array.toList_append]
    exact List.prefix_append _ _
  · exact he.elim
  · exact he.elim

end Staging

/-- Whatever is staged is in the code that is committed in the end. -/
theorem prefix_collect [Source σ] (s : Staging) (tally : Tally) (source : σ)
    (h : (collect capacity s tally source).ending.Commits) :
    s.staged.toList <+: (collect capacity s tally source).ending.code := by
  obtain ⟨before, filled, last, ending, hcourse⟩ := exists_course capacity s source
  rw [hcourse.collect_eq] at h ⊢
  have hbefore := Staging.prefix_absorbAll hcourse.absorbed
  exact hbefore.trans (Staging.prefix_of_error hcourse.ended h)

/-! ### The two ends -/

/-- How the end of a collecting changes if there is more room.  Only an end at which the
program was cut can become another one: the longer program begins with what was left of it. -/
inductive Finish.Grows : Finish σ → Finish σ → Prop
  | complete {code : Array UInt8} {rest : σ} {tally : Tally} :
      Grows ⟨.complete code, rest, tally⟩ ⟨.complete code, rest, tally⟩
  | broken {cause : IoError} {rest : σ} {tally : Tally} :
      Grows ⟨.broken cause, rest, tally⟩ ⟨.broken cause, rest, tally⟩
  /-- The chunk was overrun, and at least as much is asked of it now. -/
  | overrun {index index' : Nat} {rest : σ} {tally : Tally} : index ≤ index' →
      Grows ⟨.overrun index, rest, tally⟩ ⟨.overrun index', rest, tally⟩
  /-- The program was cut. -/
  | truncated {code : Array UInt8} {rest : σ} {tally : Tally} {f : Finish σ} :
      (f.ending.Commits → code.toList <+: f.ending.code) →
      Grows ⟨.truncated code, rest, tally⟩ f

/-- The two loads at the reading that ends the first.  Both have staged the same bytes. -/
theorem Staging.grows_of_error [Source σ] (h : capacity ≤ capacity') {s : Staging} {source : σ}
    {e : Ending} (he : s.absorb capacity (Source.read source).1 = .error e) (tally : Tally) :
    Finish.Grows ⟨e, (Source.read source).2, tally.add (Source.read source).1⟩
      (collect capacity' s tally source) := by
  have hroom : s.room capacity ≤ s.room capacity' := by
    unfold room
    omega
  rw [collect_eq]
  rcases absorb_error he with ⟨w, hr, rfl⟩ | ⟨n, w, hr, hover, hchunk, rfl⟩ |
    ⟨cause, hr, hi, rfl⟩ | ⟨n, w, hr, hover, rfl⟩
  · rw [hr, absorb_nothing]
    exact .complete
  · -- the room of the first load runs out, and the second has the rest of the report
    refine .truncated ?_
    intro hcommits
    have hpos : 1 ≤ n := by omega
    rw [hr] at hcommits ⊢
    rcases report_cases capacity' s hpos with hover' | ⟨hcut, hchunk'⟩ | ⟨-, hchunk', htaken⟩
    · rw [absorb_overrun w hover'] at hcommits
      exact hcommits.elim
    · rw [absorb_truncated w hcut hchunk']
      show _ <+: (s.staged ++ _).toList
      rw [Array.toList_append, Array.toList_append]
      exact (List.prefix_append_right_inj _).mpr (Chunk.prefix_front _ hroom)
    · rw [absorb_taken w hpos hchunk' htaken] at hcommits ⊢
      refine List.IsPrefix.trans ?_ (prefix_collect _ _ _ hcommits)
      rw [Array.toList_append, Array.toList_append]
      exact (List.prefix_append_right_inj _).mpr (Chunk.prefix_front _ (Nat.le_of_lt hover))
  · rw [hr, absorb_failed, if_neg (by rw [hi]; decide)]
    exact .broken
  · -- a report beyond the chunk is beyond it with more room as well
    have hover' : chunkSize < min n (s.room capacity') := by omega
    rw [hr, absorb_overrun w hover']
    exact .overrun (by omega)

/-- **More room makes the end of a collecting grow.** -/
theorem collect_grows [Source σ] (h : capacity ≤ capacity') (s : Staging) (tally : Tally)
    (source : σ) :
    (collect capacity s tally source).Grows (collect capacity' s tally source) := by
  obtain ⟨before, filled, last, ending, hcourse⟩ := exists_course capacity s source
  obtain ⟨hreadings, hlast⟩ := hcourse.split
  -- both collectings get as far as the reading that ends the first
  rw [collect_of_absorbAll hcourse.absorbed hreadings,
    collect_of_absorbAll (Staging.absorbAll_of_le h hcourse.absorbed) hreadings]
  have hended := hcourse.ended
  rw [← hlast] at hended
  have hgrows := Staging.grows_of_error h hended (tally.addAll before)
  rw [collect_eq capacity filled, hended]
  exact hgrows

end Room

/-! ### The two loads -/

/-- Two loads ended at the same reading of their source. -/
def LoadReport.SameReading (r : LoadReport L σ) (r' : LoadReport L' σ) : Prop :=
  r'.rest = r.rest ∧ r'.tally = r.tally

namespace Finish.Grows

variable {f f' : Finish σ} {code code' : Array UInt8}

theorem eq_of_complete (h : f.Grows f') (he : f.ending = .complete code) : f' = f := by
  cases h with
  | complete => rfl
  | broken => cases he
  | overrun => cases he
  | truncated => cases he

theorem eq_of_broken (h : f.Grows f') {cause : IoError} (he : f.ending = .broken cause) :
    f' = f := by
  cases h with
  | complete => cases he
  | broken => rfl
  | overrun => cases he
  | truncated => cases he

theorem overrun_of_overrun (h : f.Grows f') {index : Nat} (he : f.ending = .overrun index) :
    ∃ index', index ≤ index' ∧ f'.ending = .overrun index' ∧ f'.rest = f.rest ∧
      f'.tally = f.tally := by
  cases h with
  | complete => cases he
  | broken => cases he
  | overrun hle => cases he; exact ⟨_, hle, rfl, rfl, rfl⟩
  | truncated => cases he

theorem truncated_of_truncated (h : f.Grows f') (he : f'.ending = .truncated code') :
    ∃ code, f.ending = .truncated code := by
  cases h with
  | complete => cases he
  | broken => cases he
  | overrun => cases he
  | truncated => exact ⟨_, rfl⟩

theorem overrun_or_truncated (h : f.Grows f') {index' : Nat} (he : f'.ending = .overrun index') :
    (∃ index, f.ending = .overrun index) ∨ ∃ code, f.ending = .truncated code := by
  cases h with
  | complete => cases he
  | broken => cases he
  | overrun => exact .inl ⟨_, rfl⟩
  | truncated => exact .inr ⟨_, rfl⟩

/-- The code of the first end is a prefix of that of the second, and the whole of it unless the
program was cut. -/
theorem prefix_code (h : f.Grows f') (hf : f.ending.Commits) (hf' : f'.ending.Commits) :
    f.ending.code <+: f'.ending.code ∧
      (f.ending.code = f'.ending.code ∨ ∃ code, f.ending = .truncated code) := by
  cases h with
  | complete => exact ⟨List.prefix_refl _, .inl rfl⟩
  | broken => exact hf.elim
  | overrun => exact hf.elim
  | truncated hbegins => exact ⟨hbegins hf', .inr ⟨_, rfl⟩⟩

end Finish.Grows

namespace Memory

variable [Source σ] (h : L.capacity ≤ L'.capacity) (m : Memory L) (m' : Memory L') {source : σ}

include h

theorem loadCode_eq_ok_of_le {n : Nat} (hn : (m.loadCode source).outcome = .ok n) :
    (m'.loadCode source).outcome = .ok n ∧
      (m'.loadCode source).memory.code = (m.loadCode source).memory.code ∧
      (m.loadCode source).SameReading (m'.loadCode source) := by
  have hgrows := collect_grows h .start .zero source
  obtain ⟨code, he, rfl⟩ := (m.conclude_eq_ok_iff _ n).mp hn
  have hsame := hgrows.eq_of_complete he
  have hn' : (m'.loadCode source).outcome = .ok code.size := by
    refine (m'.conclude_eq_ok_iff _ _).mpr ⟨code, ?_, rfl⟩
    rw [hsame, he]
  have hcode := (m.loadCode_of_commits (.inl ⟨_, hn⟩)).2
  have hcode' := (m'.loadCode_of_commits (.inl ⟨_, hn'⟩)).2
  refine ⟨hn', ?_, congrArg Finish.rest hsame, congrArg Finish.tally hsame⟩
  rw [hcode, hcode']
  exact congrArg (fun f => f.ending.code) hsame

theorem loadCode_eq_unavailable_of_le {cause : IoError}
    (hcause : (m.loadCode source).outcome = .error (.failure (.unavailable cause))) :
    (m'.loadCode source).outcome = .error (.failure (.unavailable cause)) ∧
      (m.loadCode source).SameReading (m'.loadCode source) := by
  have hgrows := collect_grows h .start .zero source
  have he := (m.conclude_eq_unavailable_iff _ cause).mp hcause
  have hsame := hgrows.eq_of_broken he
  refine ⟨?_, congrArg Finish.rest hsame, congrArg Finish.tally hsame⟩
  refine (m'.conclude_eq_unavailable_iff _ cause).mpr ?_
  rw [hsame, he]

theorem loadCode_eq_overrun_of_le {index : Nat}
    (hindex : (m.loadCode source).outcome = .error (.overrun index)) :
    (∃ index', index ≤ index' ∧ (m'.loadCode source).outcome = .error (.overrun index')) ∧
      (m.loadCode source).SameReading (m'.loadCode source) := by
  have hgrows := collect_grows h .start .zero source
  have he := (m.conclude_eq_overrun_iff _ index).mp hindex
  obtain ⟨index', hle, he', hrest, htally⟩ := hgrows.overrun_of_overrun he
  exact ⟨⟨index', hle, (m'.conclude_eq_overrun_iff _ index').mpr he'⟩, hrest, htally⟩

theorem loadCode_eq_tooLarge_of_le
    (hcut : (m'.loadCode source).outcome = .error (.failure (.tooLarge L'.capacity))) :
    (m.loadCode source).outcome = .error (.failure (.tooLarge L.capacity)) := by
  have hgrows := collect_grows h .start .zero source
  obtain ⟨code', he'⟩ := (m'.conclude_eq_tooLarge_iff _).mp hcut
  exact (m.conclude_eq_tooLarge_iff _).mpr (hgrows.truncated_of_truncated he')

theorem loadCode_eq_overrun_or_tooLarge_of_le {index' : Nat}
    (hindex : (m'.loadCode source).outcome = .error (.overrun index')) :
    (∃ index, (m.loadCode source).outcome = .error (.overrun index)) ∨
      (m.loadCode source).outcome = .error (.failure (.tooLarge L.capacity)) := by
  have hgrows := collect_grows h .start .zero source
  have he' := (m'.conclude_eq_overrun_iff _ index').mp hindex
  rcases hgrows.overrun_or_truncated he' with ⟨index, he⟩ | hcut
  · exact .inl ⟨index, (m.conclude_eq_overrun_iff _ index).mpr he⟩
  · exact .inr ((m.conclude_eq_tooLarge_iff _).mpr hcut)

/-- What the load with less room collects is what the other one collects, as far as there is
room for it. -/
theorem collected_eq_take (hcommits : (m.loadCode source).Commits)
    (hcommits' : (m'.loadCode source).Commits) :
    L.collected source =
      (L'.collected source).take (min L.capacity (L'.collected source).length) := by
  have hgrows := collect_grows h .start .zero source
  obtain ⟨hbegins, hwhole⟩ := hgrows.prefix_code ((m.commits_conclude_iff _).mp hcommits)
    ((m'.commits_conclude_iff _).mp hcommits')
  have hle : (L.collected source).length ≤ (L'.collected source).length := hbegins.length_le
  have hfits := L.length_collected_le source
  -- it is the part of the longer code that is as long as itself
  have hlength : (L.collected source).length =
      min L.capacity (L'.collected source).length := by
    rcases hwhole with heq | ⟨code, hcut⟩
    · have hlen : (L.collected source).length = (L'.collected source).length :=
        congrArg List.length heq
      omega
    · have hfull := Layout.length_collected_of_truncated hcut
      omega
  rw [← hlength]
  exact List.prefix_iff_eq_take.mp hbegins

end Memory

/-- How the report of a load changes if there is more room. -/
structure LoadReport.Widens (m : Memory L) (m' : Memory L') (r : LoadReport L σ)
    (r' : LoadReport L' σ) : Prop where
  ok : ∀ n, r.outcome = .ok n →
    r'.outcome = .ok n ∧ r'.memory.code = r.memory.code ∧ r.SameReading r'
  unavailable : ∀ cause, r.outcome = .error (.failure (.unavailable cause)) →
    r'.outcome = .error (.failure (.unavailable cause)) ∧ r.SameReading r'
  overrun : ∀ index, r.outcome = .error (.overrun index) →
    (∃ index', index ≤ index' ∧ r'.outcome = .error (.overrun index')) ∧ r.SameReading r'
  tooLarge : r'.outcome = .error (.failure (.tooLarge L'.capacity)) →
    r.outcome = .error (.failure (.tooLarge L.capacity))
  overrun_or_tooLarge : ∀ index', r'.outcome = .error (.overrun index') →
    (∃ index, r.outcome = .error (.overrun index)) ∨
      r.outcome = .error (.failure (.tooLarge L.capacity))
  code : r.Commits → r'.Commits →
    r.memory = m.commit r.memory.code.toArray ∧ r'.memory = m'.commit r'.memory.code.toArray ∧
      r.memory.code = r'.memory.code.take (min L.capacity r'.memory.code.length)

theorem LoadReport.Widens.of_eq {τ : Type v} {m : Memory L} {m' : Memory L'} {a : LoadReport L τ}
    {a' : LoadReport L' τ} (h : a.Widens m m' a') {r : LoadReport L σ} {r' : LoadReport L' σ}
    (hr : r.toConclusion = a.toConclusion) (hr' : r'.toConclusion = a'.toConclusion)
    (hsame : a.SameReading a' → r.SameReading r') : r.Widens m m' r' where
  ok n hn := by
    rw [hr] at hn
    obtain ⟨hn', hcode, hreading⟩ := h.ok n hn
    rw [hr, hr']
    exact ⟨hn', hcode, hsame hreading⟩
  unavailable cause hcause := by
    rw [hr] at hcause
    rw [hr']
    exact ⟨(h.unavailable cause hcause).1, hsame (h.unavailable cause hcause).2⟩
  overrun index hindex := by
    rw [hr] at hindex
    rw [hr']
    exact ⟨(h.overrun index hindex).1, hsame (h.overrun index hindex).2⟩
  tooLarge hcut := by
    rw [hr'] at hcut
    rw [hr]
    exact h.tooLarge hcut
  overrun_or_tooLarge index' hindex' := by
    rw [hr'] at hindex'
    rw [hr]
    exact h.overrun_or_tooLarge index' hindex'
  code hcommits hcommits' := by
    rw [hr] at hcommits ⊢
    rw [hr'] at hcommits' ⊢
    exact h.code hcommits hcommits'

theorem Memory.widens_loadCode [Source σ] (h : L.capacity ≤ L'.capacity) (m : Memory L)
    (m' : Memory L') (source : σ) :
    LoadReport.Widens m m' (m.loadCode source) (m'.loadCode source) := by
  refine ⟨fun n => m.loadCode_eq_ok_of_le h m', fun cause => m.loadCode_eq_unavailable_of_le h m',
    fun index => m.loadCode_eq_overrun_of_le h m', m.loadCode_eq_tooLarge_of_le h m',
    fun index' => m.loadCode_eq_overrun_or_tooLarge_of_le h m', ?_⟩
  intro hcommits hcommits'
  obtain ⟨hmemory, hcode⟩ := m.loadCode_of_commits hcommits
  obtain ⟨hmemory', hcode'⟩ := m'.loadCode_of_commits hcommits'
  refine ⟨?_, ?_, ?_⟩
  · rw [hcode]
    exact hmemory
  · rw [hcode']
    exact hmemory'
  · rw [hcode, hcode']
    exact m.collected_eq_take h m' hcommits hcommits'

/-- **The same source and more room.**  Two loads from one source, of which the second has at
least as much room, end alike unless the first is cut: if the first succeeds, so does the
second, with the same code; if the first fails with its source or overruns the chunk, so does
the second, at the same reading, with the same cause and at an index no smaller.  If the second
is cut, so is the first; if the second overruns the chunk, the first overruns it or is cut.
Whenever both commit code, that of the first is that of the second, as far as there was room
for it. -/
theorem loadCode_of_capacity_le [Source σ] (h : L.capacity ≤ L'.capacity) (m : Memory L)
    (m' : Memory L') (source : σ) :
    let r := m.loadCode source
    let r' := m'.loadCode source
    (∀ n, r.outcome = .ok n →
      r'.outcome = .ok n ∧ r'.memory.code = r.memory.code ∧ r.SameReading r') ∧
    (∀ cause, r.outcome = .error (.failure (.unavailable cause)) →
      r'.outcome = .error (.failure (.unavailable cause)) ∧ r.SameReading r') ∧
    (∀ index, r.outcome = .error (.overrun index) →
      (∃ index', index ≤ index' ∧ r'.outcome = .error (.overrun index')) ∧
        r.SameReading r') ∧
    (r'.outcome = .error (.failure (.tooLarge L'.capacity)) →
      r.outcome = .error (.failure (.tooLarge L.capacity))) ∧
    (∀ index', r'.outcome = .error (.overrun index') →
      (∃ index, r.outcome = .error (.overrun index)) ∨
        r.outcome = .error (.failure (.tooLarge L.capacity))) ∧
    (r.Commits → r'.Commits →
      r.memory = m.commit r.memory.code.toArray ∧
      r'.memory = m'.commit r'.memory.code.toArray ∧
      r.memory.code = r'.memory.code.take (min L.capacity r'.memory.code.length)) := by
  intro r r'
  have hwidens := m.widens_loadCode h m' source
  exact ⟨hwidens.ok, hwidens.unavailable, hwidens.overrun, hwidens.tooLarge,
    hwidens.overrun_or_tooLarge, hwidens.code⟩

/-- A source writes one byte and reports three.  Where there is room for two bytes the load is
cut; with room for four it succeeds, and the first two of its bytes are those. -/
theorem loadCode_with_room_for_four :
    let L : Layout := { ram := 3, stack := 1 }
    let L' : Layout := { ram := 4, stack := 0 }
    let rs : List Reading := [.got 3 [7]]
    let m := Memory.zeroed L
    let m' := Memory.zeroed L'
    L.capacity ≤ L'.capacity ∧
      (m'.loadCode rs).outcome = .ok 3 ∧ (m'.loadCode rs).memory.code = [7, 0, 0] ∧
      (m.loadCode rs).outcome = .error (.failure (.tooLarge 2)) ∧
      (m.loadCode rs).memory = ⟨#v[0, 7, 0], 2⟩ := by
  intro L L' rs m m'
  have h : L.capacity ≤ L'.capacity := by decide
  have hcut : Course L.capacity .start rs [] .start (.got 3 [7]) (.truncated #[7, 0]) :=
    ⟨rfl, rfl, rfl⟩
  have hwhole : Course L'.capacity .start rs [.got 3 [7]]
      ⟨#[7, 0, 0], Chunk.zeroed.overwrite [7]⟩ .nothing (.complete #[7, 0, 0]) :=
    ⟨rfl, rfl, rfl⟩
  have houtcome : (m.loadCode rs).outcome = .error (.failure (.tooLarge 2)) := by
    rw [hcut.loadCode_eq]
    rfl
  have houtcome' : (m'.loadCode rs).outcome = .ok 3 := by
    rw [hwhole.loadCode_eq]
    rfl
  have hcode' : (m'.loadCode rs).memory.code = [7, 0, 0] := by
    rw [hwhole.loadCode_eq]
    rfl
  obtain ⟨-, -, -, -, -, hcommit⟩ := loadCode_of_capacity_le h m m' rs
  obtain ⟨hmemory, -, hcode⟩ := hcommit (.inr houtcome) (.inl ⟨3, houtcome'⟩)
  refine ⟨h, houtcome', hcode', houtcome, ?_⟩
  rw [hmemory, hcode, hcode']
  rfl

/-! ### Readings without end -/

namespace Memory

variable (h : L.capacity ≤ L'.capacity) (m : Memory L) (m' : Memory L') {rs : Stream' Reading}

include h

theorem loadFrom_eq_none_of_le (hnone : m.loadFrom rs = none) : m'.loadFrom rs = none := by
  rw [loadFrom_eq_none_iff] at hnone ⊢
  intro n
  obtain ⟨s, hs⟩ := hnone n
  exact ⟨s, Staging.absorbAll_of_le h hs⟩

/-- A load that is not cut comes to an end with more room as well. -/
theorem exists_loadFrom_of_le {r : LoadReport L (Stream' Reading)} (hr : m.loadFrom rs = some r)
    (hcut : r.outcome ≠ .error (.failure (.tooLarge L.capacity))) :
    ∃ r', m'.loadFrom rs = some r' := by
  obtain ⟨hconclusion, htally, -⟩ := eq_loadCode_take hr (Nat.le_refl _)
  have hwidens := m.widens_loadCode h m' (rs.take r.tally.reads)
  have hdecided := (m.loadFrom_outcome rs).1 r hr
  rw [hconclusion] at hcut hdecided
  -- the second load reads as much of the list as the first
  have hsame : (m.loadCode (rs.take r.tally.reads)).SameReading
      (m'.loadCode (rs.take r.tally.reads)) := by
    rcases hdecided.outcome with ⟨n, hn⟩ | htooLarge | ⟨cause, hcause⟩ | ⟨index, hindex⟩
    · exact (hwidens.ok n hn).2.2
    · exact absurd htooLarge hcut
    · exact (hwidens.unavailable cause hcause).2
    · exact (hwidens.overrun index hindex).2
  have hreads : (m'.loadCode (rs.take r.tally.reads)).tally.reads ≤ r.tally.reads := by
    rw [hsame.2, ← htally]
  exact ⟨_, loadFrom_eq_loadCode_take hreads⟩

/-- Two loads from one sequence, of which the second has at least as much room. -/
theorem loadFrom_of_capacity_le :
    (m.loadFrom rs = none → m'.loadFrom rs = none) ∧
    (∀ r, m.loadFrom rs = some r → m'.loadFrom rs = none →
      r.outcome = .error (.failure (.tooLarge L.capacity))) ∧
    ∀ r r', m.loadFrom rs = some r → m'.loadFrom rs = some r' → r.Widens m m' r' := by
  refine ⟨m.loadFrom_eq_none_of_le h m', ?_, ?_⟩
  · intro r hr hnone
    by_contra hcut
    obtain ⟨r', hr'⟩ := m.exists_loadFrom_of_le h m' hr hcut
    rw [hnone] at hr'
    cases hr'
  · intro r r' hr hr'
    -- both loads are loads from one list, which is as long as the longer of them
    obtain ⟨hconclusion, htally, hrest⟩ :=
      eq_loadCode_take hr (Nat.le_max_left _ r'.tally.reads)
    obtain ⟨hconclusion', htally', hrest'⟩ :=
      eq_loadCode_take hr' (Nat.le_max_right r.tally.reads _)
    refine (m.widens_loadCode h m' _).of_eq hconclusion hconclusion' ?_
    rintro ⟨-, hsame⟩
    have htallies : r'.tally = r.tally := by rw [htally', hsame, ← htally]
    exact ⟨by rw [hrest', hrest, htallies], htallies⟩

end Memory

end FlatMemory
