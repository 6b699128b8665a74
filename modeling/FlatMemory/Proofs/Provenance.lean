import FlatMemory.Proofs.Endless
import FlatMemory.Proofs.Committed

/-!
# Where the bytes of a program come from

A report takes bytes from the front of the chunk, whether or not they were written for it.  If
fewer were, it uncovers bytes of earlier readings, and zeros where no reading has written yet.
So every byte of a program comes from a reading of the same load, and which one that is can be
told from the lengths of what the readings wrote and the counts that they reported.

## Main definitions

* `Reading.written` — the bytes that a reading puts at the front of the chunk.
* `Reading.latest rs j` — what the readings have left at the place `j` of the chunk.
* `Reading.reported` — the bytes that readings report.
* `Reading.Accounts` — some bytes are those that readings report, one by one.

## Main results

* `Staging.Shows.absorbAll` — the loop invariant: the chunk holds the latest bytes, and
  those that were reported are staged.
* `Course.code_eq` — the code of an ending is what the readings up to it reported, as far as
  there is room.
* `Reading.getElem_reported` — the byte at an index, from the one reading that reports it.
* `loadFrom_provenance` — **where the bytes of a program come from.**
-/

namespace FlatMemory

universe u

variable {σ : Type u} {L : Layout} {capacity : Nat}

open Reading (total)

/-! ### What readings leave in the chunk, and what they report -/

namespace Reading

/-- The bytes that a reading puts at the front of the chunk. -/
def written : Reading → List UInt8
  | got _ w => w
  | failed _ => []

/-- The byte at the place `j` of a chunk that was wiped before the readings: the latest that one
of them has written there, and zero if none has. -/
def latest (rs : List Reading) (j : Nat) : UInt8 :=
  ((rs.filterMap fun r => r.written[j]?).getLast?).getD 0

/-- The bytes that readings report, if those of `past` came before them: for each reading the
first bytes of the chunk as it leaves it, as many as it says. -/
def reported (past : List Reading) : List Reading → List UInt8
  | [] => []
  | r :: rs => (List.range r.count).map (latest (past ++ [r])) ++ reported (past ++ [r]) rs

theorem latest_append (rs : List Reading) (r : Reading) (j : Nat) :
    latest (rs ++ [r]) j =
      if h : j < r.written.length then r.written[j] else latest rs j := by
  unfold latest
  rw [List.filterMap_append]
  by_cases h : j < r.written.length
  · rw [dif_pos h]
    simp [List.getElem?_eq_getElem h]
  · rw [dif_neg h]
    simp [List.getElem?_eq_none (Nat.le_of_not_lt h)]

theorem latest_eq_zero_or_mem (rs : List Reading) (j : Nat) :
    latest rs j = 0 ∨ ∃ r ∈ rs, latest rs j ∈ r.written := by
  unfold latest
  cases h : (rs.filterMap fun r => r.written[j]?).getLast? with
  | none => exact .inl rfl
  | some b =>
    obtain ⟨r, hr, hb⟩ := List.mem_filterMap.mp (List.mem_of_getLast? h)
    exact .inr ⟨r, hr, List.mem_of_getElem? hb⟩

@[simp] theorem length_reported (rs : List Reading) : ∀ past : List Reading,
    (reported past rs).length = total rs := by
  induction rs with
  | nil => intro past; rfl
  | cons r rs ih => intro past; simp [reported, ih]

theorem reported_append (rs rs' : List Reading) : ∀ past : List Reading,
    reported past (rs ++ rs') = reported past rs ++ reported (past ++ rs) rs' := by
  induction rs with
  | nil => intro past; rw [List.append_nil]; rfl
  | cons r rs ih =>
    intro past
    rw [List.cons_append, reported, ih, reported, List.append_assoc, List.append_assoc,
      List.singleton_append]

/-- One reading more reports the front of the chunk as it leaves it. -/
theorem reported_concat (rs : List Reading) (r : Reading) :
    reported [] (rs ++ [r]) =
      reported [] rs ++ (List.range r.count).map (latest (rs ++ [r])) := by
  rw [reported_append, List.nil_append, reported, reported, List.append_nil]

end Reading

open Reading (latest reported)

/-! ### The invariant of the loop -/

theorem Chunk.toList_front {chunk : Chunk} {byte : Nat → UInt8}
    (h : ∀ (j : Nat) (hj : j < chunkSize), chunk[j] = byte j) {n : Nat} (hn : n ≤ chunkSize) :
    (chunk.front n).toList = (List.range n).map byte := by
  apply List.ext_getElem
  · simp [Nat.min_eq_left hn]
  · intro j hj hj'
    have hjn : j < n := by simpa using hj'
    simpa [Chunk.front] using h j (by omega)

namespace Staging

/-- **The loop invariant.**  The readings `rs` have left their latest bytes in the chunk, and
what they reported is staged. -/
structure Shows (s : Staging) (rs : List Reading) : Prop where
  chunk : ∀ (j : Nat) (hj : j < chunkSize), s.chunk[j] = latest rs j
  staged : s.staged.toList = reported [] rs

theorem shows_start : Shows start [] where
  chunk := Chunk.getElem_zeroed
  staged := rfl

theorem Shows.getElem_overwrite {s : Staging} {rs : List Reading} (h : s.Shows rs) (n : Nat)
    (w : List UInt8) (j : Nat) (hj : j < chunkSize) :
    (s.chunk.overwrite w)[j] = latest (rs ++ [.got n w]) j := by
  rw [Chunk.getElem_overwrite, Reading.latest_append, h.chunk j hj]
  rfl

theorem Shows.absorb {s s' : Staging} {rs : List Reading} {r : Reading} (h : s.Shows rs)
    (hr : s.absorb capacity r = .ok s') : s'.Shows (rs ++ [r]) := by
  rcases absorb_ok hr with ⟨hi, rfl⟩ | ⟨n, w, rfl, -, hchunk, -, rfl⟩
  · cases r with
    | got n w => simp at hi
    | failed cause =>
      refine ⟨fun j hj => ?_, ?_⟩
      · rw [Reading.latest_append]
        exact h.chunk j hj
      · rw [Reading.reported_concat, h.staged]
        exact (List.append_nil _).symm
  · refine ⟨h.getElem_overwrite n w, ?_⟩
    rw [Array.toList_append, h.staged, Chunk.toList_front (h.getElem_overwrite n w) hchunk,
      Reading.reported_concat, Reading.count_got]

/-- **Absorbing keeps the invariant**, however many readings there are. -/
theorem Shows.absorbAll {s s' : Staging} {rs rs' : List Reading} (h : s.Shows rs)
    (hrs : s.absorbAll capacity rs' = .ok s') : s'.Shows (rs ++ rs') :=
  absorbAll_induction (P := Shows) (fun h hr => h.absorb hr) h hrs

end Staging

/-- The code of an ending is what the readings up to it reported, as far as there is
room. -/
theorem Course.code_eq [Source σ] {source : σ} {before : List Reading} {filled : Staging}
    {last : Reading} {ending : Ending}
    (h : Course capacity .start source before filled last ending) (hcommits : ending.Commits) :
    ending.code = (reported [] (before ++ [last])).take capacity := by
  have htracks := Staging.tracks_of_absorbAll h.absorbed
  have hfits := htracks.fits
  have hroom := htracks.room_eq
  have hshows : filled.Shows before := Staging.shows_start.absorbAll h.absorbed
  have hlength := Reading.length_reported before []
  rw [Reading.reported_concat]
  rcases Staging.absorb_error h.ended with ⟨w, rfl, rfl⟩ | ⟨n, w, rfl, hn, hchunk, rfl⟩ |
    ⟨cause, -, -, rfl⟩ | ⟨n, w, -, -, rfl⟩
  · -- nothing more: all that was reported is staged
    show filled.staged.toList = List.take _ (_ ++ [])
    rw [List.append_nil, List.take_of_length_le (by omega), hshows.staged]
  · -- the last report is cut where the room ends
    have hfront := Chunk.toList_front (hshows.getElem_overwrite n w) hchunk
    show (filled.staged ++ _).toList = _
    rw [Array.toList_append, hshows.staged, hfront, List.take_append,
      List.take_of_length_le (by omega), ← List.map_take, List.take_range, Reading.count_got,
      Nat.min_eq_left (by omega), hroom, hlength]
  · exact hcommits.elim
  · exact hcommits.elim

/-! ### One byte -/

namespace Reading

/-- The bytes `code` are accounted for by the first `n` readings of a sequence.  They are those
that the readings report, as far as there is room.  The byte at an index is reported by one of
the readings and by no other of the sequence: the one in front of which no more bytes than the
index are reported, and with which more are.  It is the latest byte that this reading and those
before it have written at its place in the chunk, or zero if they have written none there. -/
structure Accounts (capacity : Nat) (rs : Stream' Reading) (n : Nat) (code : List UInt8) :
    Prop where
  length : code.length = min capacity (total (rs.take n))
  /-- Where each of them comes from. -/
  byte : ∀ (i : Nat) (hi : i < code.length), ∃ k < n,
    (∀ k', total (rs.take k') ≤ i ∧ i < total (rs.take k') + (rs.get k').count ↔ k' = k) ∧
      code[i] = latest (rs.take (k + 1)) (i - total (rs.take k))

variable {rs : Stream' Reading}

theorem total_take_succ (k : Nat) :
    total (rs.take (k + 1)) = total (rs.take k) + (rs.get k).count := by
  rw [Stream'.take_succ', total_append, total_cons, total_nil, Nat.add_zero]

theorem total_take_le {k k' : Nat} (h : k ≤ k') : total (rs.take k) ≤ total (rs.take k') := by
  obtain ⟨d, rfl⟩ := Nat.exists_eq_add_of_le h
  rw [Stream'.take_add, total_append]
  exact Nat.le_add_right _ _

/-- A byte that is reported is reported by one of the readings. -/
theorem exists_of_lt_total {n i : Nat} (h : i < total (rs.take n)) :
    ∃ k < n, total (rs.take k) ≤ i ∧ i < total (rs.take k) + (rs.get k).count := by
  induction n with
  | zero => exact absurd h (Nat.not_lt_zero i)
  | succ n ih =>
    by_cases hn : i < total (rs.take n)
    · obtain ⟨k, hk, hbetween⟩ := ih hn
      exact ⟨k, Nat.lt_succ_of_lt hk, hbetween⟩
    · rw [total_take_succ] at h
      exact ⟨n, Nat.lt_succ_self n, Nat.le_of_not_lt hn, h⟩

/-- No two readings report the same byte. -/
theorem eq_of_between {k k' i : Nat} (hk : total (rs.take k) ≤ i)
    (hk₁ : i < total (rs.take k) + (rs.get k).count) (hk' : total (rs.take k') ≤ i)
    (hk'₁ : i < total (rs.take k') + (rs.get k').count) : k' = k := by
  rw [← total_take_succ] at hk₁ hk'₁
  rcases Nat.lt_trichotomy k k' with hlt | rfl | hlt
  · have hle : total (rs.take (k + 1)) ≤ total (rs.take k') := total_take_le hlt
    omega
  · rfl
  · have hle : total (rs.take (k' + 1)) ≤ total (rs.take k) := total_take_le hlt
    omega

/-- The byte at an index, from the reading that reports it. -/
theorem getElem_reported {n k i : Nat} (hn : k < n) (hk : total (rs.take k) ≤ i)
    (hk₁ : i < total (rs.take k) + (rs.get k).count)
    (hi : i < (reported [] (rs.take n)).length) :
    (reported [] (rs.take n))[i] = latest (rs.take (k + 1)) (i - total (rs.take k)) := by
  obtain ⟨d, rfl⟩ := Nat.exists_eq_add_of_le (Nat.succ_le_of_lt hn)
  have hfirst : reported [] (rs.take (k + 1)) = reported [] (rs.take k) ++
      (List.range (rs.get k).count).map (latest (rs.take (k + 1))) := by
    rw [Stream'.take_succ', reported_concat]
  have hlength := length_reported (rs.take k) []
  simp only [Stream'.take_add, reported_append, hfirst]
  rw [List.getElem_append_left, List.getElem_append_right]
  · simp [hlength]
  · omega
  · simp; omega

theorem accounts_reported (capacity : Nat) (rs : Stream' Reading) (n : Nat) :
    Accounts capacity rs n ((reported [] (rs.take n)).take capacity) where
  length := by rw [List.length_take, length_reported]
  byte := by
    intro i hi
    rw [List.length_take, length_reported] at hi
    have htotal : i < total (rs.take n) := by omega
    obtain ⟨k, hkn, hk, hk₁⟩ := exists_of_lt_total htotal
    refine ⟨k, hkn, fun k' => ⟨?_, ?_⟩, ?_⟩
    · rintro ⟨hk', hk'₁⟩
      exact eq_of_between hk hk₁ hk' hk'₁
    · rintro rfl
      exact ⟨hk, hk₁⟩
    · rw [List.getElem_take]
      exact getElem_reported hkn hk hk₁ _

theorem Accounts.eq_zero_or_mem {n : Nat} {code : List UInt8} (h : Accounts capacity rs n code)
    {b : UInt8} (hb : b ∈ code) : b = 0 ∨ ∃ k < n, b ∈ (rs.get k).written := by
  obtain ⟨i, hi, rfl⟩ := List.mem_iff_getElem.mp hb
  obtain ⟨k, hkn, -, hbyte⟩ := h.byte i hi
  rw [hbyte]
  rcases latest_eq_zero_or_mem (rs.take (k + 1)) (i - total (rs.take k)) with hzero | ⟨r, hr, hmem⟩
  · exact .inl hzero
  · obtain ⟨k', hk', rfl⟩ := List.mem_iff_getElem.mp hr
    rw [Stream'.length_take] at hk'
    rw [Stream'.take_get] at hmem
    exact .inr ⟨k', by omega, hmem⟩

end Reading

/-! ### Loads -/

namespace Memory

/-- A load that commits puts into the memory what is accounted for by the readings that it asked
for. -/
theorem accounts_of_loadFrom {m : Memory L} {rs : Stream' Reading}
    {report : LoadReport L (Stream' Reading)} (h : m.loadFrom rs = some report)
    (hcommits : report.Commits) :
    report.memory = m.commit report.memory.code.toArray ∧
      Reading.Accounts L.capacity rs report.tally.reads report.memory.code ∧
      ∀ b ∈ report.memory.code, b = 0 ∨ ∃ k < report.tally.reads, b ∈ (rs.get k).written := by
  obtain ⟨before, filled, last, ending, hrs, hcourse, hconclusion, htally⟩ :=
    exists_course_of_loadFrom h
  rw [hconclusion, commits_conclude_iff] at hcommits
  have hmemory : report.memory = m.commit ending.code.toArray :=
    (congrArg Conclusion.memory hconclusion).trans (m.memory_conclude hcommits)
  have hcode : report.memory.code = ending.code := by
    rw [hmemory, m.code_commit hcourse.length_code_le]
  have hreads := take_reads hrs htally
  have haccounts := Reading.accounts_reported L.capacity rs report.tally.reads
  rw [hreads, ← hcourse.code_eq hcommits, ← hcode] at haccounts
  refine ⟨?_, haccounts, fun b hb => haccounts.eq_zero_or_mem hb⟩
  rw [hcode, ← hmemory]

end Memory

/-- **Where the bytes of a program come from.**  Let a load succeed, or end because its source
holds more than the code region, from any readings at all: nothing relates the counts that they
report to the bytes that they write.  Then the load puts its program into the code region, and
every byte of the program is accounted for by the readings that the load asked for: it is what
these have left in a chunk that was wiped before the first of them.  So every byte was written
by one of them, or is a zero.  This holds of the load from a source, whose readings are those of
the source. -/
theorem loadFrom_provenance (m : Memory L) :
    (∀ rs report, m.loadFrom rs = some report → report.Commits →
      report.memory = m.commit report.memory.code.toArray ∧
      Reading.Accounts L.capacity rs report.tally.reads report.memory.code ∧
      ∀ b ∈ report.memory.code, b = 0 ∨ ∃ k < report.tally.reads, b ∈ (rs.get k).written) ∧
    ∀ {σ : Type u} [Source σ] (source : σ),
      let rs := Source.stream source
      let report := m.loadCode source
      report.Commits →
        report.memory = m.commit report.memory.code.toArray ∧
        Reading.Accounts L.capacity rs report.tally.reads report.memory.code ∧
        ∀ b ∈ report.memory.code, b = 0 ∨ ∃ k < report.tally.reads, b ∈ (rs.get k).written := by
  refine ⟨fun rs report h hcommits => Memory.accounts_of_loadFrom h hcommits, ?_⟩
  intro σ _ source rs report hcommits
  exact Memory.accounts_of_loadFrom (m.loadFrom_stream source) hcommits

/-- The last report is longer than what was written for it and than the room.  Its first byte is
its own, and the second one was written for the first report.  Nothing that the source could
give after it makes a difference. -/
theorem loadFrom_provenance_uncovered :
    let L : Layout := { ram := 5, stack := 1 }
    let m : Memory L := ⟨#v[8, 8, 8, 8, 8], 4⟩
    let rs : List Reading := [.got 2 [1, 2], .failed (.plain .interrupted), .got 3 [9]]
    (m.loadCode rs).Commits ∧ (m.loadCode rs).memory = m.commit #[1, 2, 9, 2] ∧
      Reading.Accounts L.capacity (Source.stream rs) 3 [1, 2, 9, 2] ∧ latest rs 1 = 2 ∧
      ∀ more, ∃ report, m.loadFrom (rs ++ₛ more) = some report ∧ report.Commits ∧
        Reading.Accounts L.capacity (rs ++ₛ more) 3 report.memory.code := by
  intro L m rs
  have hcourse : Course L.capacity .start rs [.got 2 [1, 2], .failed (.plain .interrupted)]
      ⟨#[1, 2], Chunk.zeroed.overwrite [1, 2]⟩ (.got 3 [9]) (.truncated #[1, 2, 9, 2]) :=
    ⟨rfl, rfl, rfl⟩
  have hload := hcourse.loadCode_eq m
  have hcommits : (m.loadCode rs).Commits := by
    rw [hload]
    exact .inr rfl
  obtain ⟨hfrom, hsource⟩ := loadFrom_provenance m
  obtain ⟨hmemory, haccounts, -⟩ := hsource rs hcommits
  rw [hload] at hmemory haccounts
  refine ⟨hcommits, ?_, haccounts, rfl, ?_⟩
  · rw [hload]
    exact hmemory
  · intro more
    have hlist := Staging.course_list hcourse.absorbed hcourse.ended
    have hmore := m.loadFrom_of_course hlist more
    obtain ⟨-, haccounts', -⟩ := hfrom _ _ hmore (.inr rfl)
    exact ⟨_, hmore, .inr rfl, haccounts'⟩

end FlatMemory
