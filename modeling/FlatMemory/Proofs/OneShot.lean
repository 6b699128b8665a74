import FlatMemory.Proofs.Collecting

/-!
# Loading piece by piece and loading at once

If a source is honest, it makes no difference how it cuts its bytes into readings, where it
is interrupted and at which of its readings the room is used up: a load does what it would
do with the whole program in hand.

## Main definitions

* `Ending.atOnce` — how the collecting of a program ends that is known as a whole.
* `Memory.place` — a memory with a program spliced into it.
* `Memory.loadAtOnce` — the load of a program that is known as a whole.

## Main results

* `Course.ending_eq` — honest readings end as their bytes and their final reading say.
* `Memory.commit_eq_place` — a program that fits is spliced in.
* `loadCode_eq_loadAtOnce` — **a load is the load at once.**
-/

namespace FlatMemory

universe u

variable {σ : Type u} {L : Layout}

open Reading (delivered final)

/-! ### The ending -/

/-- How the collecting ends if the whole program is known, and the reading after it. -/
def Ending.atOnce (capacity : Nat) (program : List UInt8) (after : Reading) : Ending :=
  if capacity < program.length then .truncated (program.take capacity).toArray
  else
    match after with
    | .got _ _ => .complete program.toArray
    | .failed cause => .broken cause

theorem eq_toArray_of_toList {α : Type} {a : Array α} {l : List α} (h : a.toList = l) :
    a = l.toArray := by
  rw [← h]

/-- The first bytes of two stretches, the second of them itself cut out of another. -/
theorem take_append_take {pre w rest : List UInt8} {capacity n : Nat}
    (hpre : pre.length ≤ capacity) (hn : capacity - pre.length ≤ n) (hw : n ≤ w.length) :
    (pre ++ (w.take n ++ rest)).take capacity = pre ++ w.take (capacity - pre.length) := by
  have hcut : capacity - pre.length ≤ (w.take n).length := by rw [List.length_take]; omega
  rw [List.take_append, List.take_of_length_le hpre, List.take_append_of_le_length hcut,
    List.take_take, Nat.min_eq_left hn]

section Course

variable [Source σ] {capacity : Nat} {source : σ} {before : List Reading} {filled : Staging}
  {last : Reading} {ending : Ending}

/-- **Honest readings end as the bytes that they deliver say**, whatever would be read
after the last of them. -/
theorem Course.ending_eq (h : Course capacity .start source before filled last ending)
    (honest : Source.Honest source) (tail : List Reading) :
    ending = .atOnce capacity (delivered (before ++ last :: tail))
      (final (before ++ last :: tail)) := by
  obtain ⟨hbefore, hlast⟩ := h.honest honest
  have htracks := Staging.tracks_of_absorbAll h.absorbed
  have hstaged := h.toList_staged honest
  have hlen := Reading.length_flatMap_bytes hbefore
  have hfits := htracks.fits
  have hroom := htracks.room_eq
  rw [h.delivered_eq, h.final_eq]
  rcases Staging.absorb_error h.ended with ⟨w, rfl, rfl⟩ | ⟨n, w, rfl, hover, hchunk, rfl⟩ |
    ⟨cause, rfl, hi, rfl⟩ | ⟨n, w, rfl, hover, rfl⟩
  · -- nothing more: the staged bytes are the program
    have hfinal : (Reading.got 0 w).isFinal = true := rfl
    rw [Reading.delivered_cons_final hfinal, Reading.final_cons_final hfinal, List.append_nil]
    unfold Ending.atOnce
    rw [if_neg (by omega), ← hstaged]
  · -- more than there is room for: the last reading is cut
    have hpos : n ≠ 0 := by omega
    have hwritten := hlast.1
    have hcut : ((filled.chunk.overwrite w).front (filled.room capacity)).toList =
        w.take (filled.room capacity) :=
      Staging.toList_front_overwrite filled.chunk (by omega) hchunk
    have hnext : (Reading.got n w).isFinal = false := by simp [Reading.isFinal, hpos]
    have hbytes : (Reading.got n w).bytes = w.take n := rfl
    rw [Reading.delivered_cons hnext, hbytes]
    unfold Ending.atOnce
    rw [if_pos (by rw [List.length_append, List.length_append, List.length_take]; omega)]
    congr 1
    apply eq_toArray_of_toList
    rw [Array.toList_append, hstaged, hcut, hroom, ← hlen]
    exact (take_append_take (by omega) (by omega) hwritten).symm
  · -- a failure: the staged bytes are forgotten
    have hfinal : (Reading.failed cause).isFinal = true := by simp [Reading.isFinal, hi]
    rw [Reading.delivered_cons_final hfinal, Reading.final_cons_final hfinal, List.append_nil]
    unfold Ending.atOnce
    rw [if_neg (by omega)]
  · -- an honest report lies in the chunk
    have hwritten := hlast.1
    have hchunk := hlast.2
    omega

/-- Honest readings come to a final one if and only if they deliver no more than there is
room for. -/
theorem Course.isFinal_iff (h : Course capacity .start source before filled last ending)
    (honest : Source.Honest source) :
    last.isFinal = true ↔ (delivered (before ++ [last])).length ≤ capacity := by
  obtain ⟨hbefore, hlast⟩ := h.honest honest
  have htracks := Staging.tracks_of_absorbAll h.absorbed
  have hlen := Reading.length_flatMap_bytes hbefore
  have hfits := htracks.fits
  have hroom := htracks.room_eq
  rw [h.delivered_eq, List.length_append, hlen]
  cases hfinal : last.isFinal with
  | true =>
    rw [Reading.delivered_cons_final hfinal]
    simpa using hfits
  | false =>
    have hcount := hlast.length_bytes
    rw [Reading.delivered_cons hfinal, Reading.delivered_nil, List.append_nil, hcount]
    -- of the readings that end a load only one that is cut is not final
    rcases Staging.absorb_error h.ended with ⟨w, rfl, -⟩ | ⟨n, w, rfl, hover, -, -⟩ |
      ⟨cause, rfl, hi, -⟩ | ⟨n, w, rfl, hover, -⟩
    · cases hfinal
    · rw [Reading.count_got]
      constructor
      · intro hfalse; cases hfalse
      · intro hle; omega
    · simp [Reading.isFinal, hi] at hfinal
    · have hwritten := hlast.1
      have hchunk := hlast.2
      omega

end Course

/-! ### The memory -/

namespace Memory

/-- A memory into which a program is spliced: what stood in its place is gone, and nothing
else. -/
def place (m : Memory L) (code : List UInt8) (fits : code.length ≤ L.capacity) : Memory L where
  bytes :=
    ⟨(m.bytes.toList.take L.stack ++ code ++ m.bytes.toList.drop (L.stack + code.length)).toArray,
      by
        have hram := L.stack_add_capacity
        simp only [List.size_toArray, List.length_append, List.length_take, List.length_drop,
          Vector.length_toList]
        omega⟩
  codeLen := code.length

theorem getElem_place (m : Memory L) {code : List UInt8} (fits : code.length ≤ L.capacity)
    (a : Nat) (h : a < L.ram) :
    (m.place code fits).bytes[a] =
      if hc : L.stack ≤ a ∧ a - L.stack < code.length then code[a - L.stack] else m.bytes[a] := by
  have hram := L.stack_add_capacity
  have hlen : (m.bytes.toList.take L.stack).length = L.stack := by
    rw [List.length_take, Vector.length_toList]; omega
  have hall : (m.bytes.toList.take L.stack ++ code ++
      m.bytes.toList.drop (L.stack + code.length)).length = L.ram := by
    rw [List.length_append, List.length_append, hlen, List.length_drop, Vector.length_toList]
    omega
  have hbound := h
  rw [← hall] at hbound
  have hget : (m.place code fits).bytes[a] = (m.bytes.toList.take L.stack ++ code ++
      m.bytes.toList.drop (L.stack + code.length))[a] := rfl
  rw [hget]
  by_cases hstack : a < L.stack
  · -- the stack region
    rw [dif_neg (by omega), List.getElem_append_left (by rw [List.length_append, hlen]; omega),
      List.getElem_append_left (by omega), List.getElem_take, Vector.getElem_toList]
  · by_cases hcode : a - L.stack < code.length
    · rw [dif_pos ⟨by omega, hcode⟩,
        List.getElem_append_left (by rw [List.length_append, hlen]; omega),
        List.getElem_append_right (by omega)]
      simp only [hlen]
    · -- the bytes after the program
      rw [dif_neg (by omega),
        List.getElem_append_right (by rw [List.length_append, hlen]; omega), List.getElem_drop,
        Vector.getElem_toList]
      congr 1
      rw [List.length_append, hlen]
      omega

/-- A program that fits is committed by splicing it in. -/
theorem commit_eq_place (m : Memory L) {code : List UInt8} (fits : code.length ≤ L.capacity) :
    m.commit code.toArray = m.place code fits := by
  have hbytes : (m.commit code.toArray).bytes = (m.place code fits).bytes := by
    apply Vector.ext
    intro a h
    rw [getElem_commit, getElem_place]
    rfl
  exact congrArg (Memory.mk · code.length) hbytes

/-- **The load of a program that is known as a whole**, together with the reading after
it.  A program that is too long is cut, and the rest of it and what comes after it do not
matter; otherwise it is loaded if the source has nothing more, and forgotten if it failed. -/
def loadAtOnce (m : Memory L) (program : List UInt8) (after : Reading) :
    Except Fault Nat × Memory L :=
  if fits : program.length ≤ L.capacity then
    match after with
    | .got _ _ => (.ok program.length, m.place program fits)
    | .failed cause => (.error (.failure (.unavailable cause)), m)
  else
    (.error (.failure (.tooLarge L.capacity)),
      m.place (program.take L.capacity) (List.length_take_le L.capacity program))

theorem conclude_atOnce (m : Memory L) (program : List UInt8) (after : Reading) :
    ((m.conclude (.atOnce L.capacity program after)).outcome,
      (m.conclude (.atOnce L.capacity program after)).memory) = m.loadAtOnce program after := by
  unfold Ending.atOnce loadAtOnce
  by_cases fits : program.length ≤ L.capacity
  · rw [if_neg (Nat.not_lt.mpr fits), dif_pos fits]
    cases after with
    | got n w => simp [conclude, commit_eq_place m fits]
    | failed cause => rfl
  · rw [if_pos (Nat.not_le.mp fits), dif_neg fits]
    simp only [conclude, commit_eq_place m (List.length_take_le L.capacity program)]

end Memory

/-! ### A load -/

/-- **A load is the load at once.**  Let the readings of a source be those of a list of
honest readings, and then nothing more for ever.  Then a load from it answers and leaves
behind what the load at once does with the bytes that are delivered before the first final
reading, and with that reading. -/
theorem loadCode_eq_loadAtOnce [Source σ] (m : Memory L) {source : σ} {rs : List Reading}
    (hsource : Source.Follows source rs) (honest : ∀ r ∈ rs, r.Honest) :
    ((m.loadCode source).outcome, (m.loadCode source).memory) =
      m.loadAtOnce (delivered rs) (final rs) := by
  obtain ⟨before, filled, last, ending, hcourse⟩ := exists_course L.capacity .start source
  -- the readings of the load are the first ones of the list and of nothing after it
  let n := before.length + 1
  have hreadings : (rs ++ List.replicate n Reading.nothing).take n = before ++ [last] := by
    rw [← Source.readings_list, ← hsource n]
    exact hcourse.readings
  obtain ⟨tail, htail⟩ : ∃ tail,
      rs ++ List.replicate n Reading.nothing = before ++ last :: tail := by
    refine ⟨(rs ++ List.replicate n Reading.nothing).drop n, ?_⟩
    rw [List.append_cons, ← hreadings, List.take_append_drop]
  have hending := hcourse.ending_eq (hsource.honest honest) tail
  rw [← htail, Reading.delivered_append_replicate, Reading.final_append_replicate] at hending
  rw [hcourse.loadCode_eq, hending]
  exact m.conclude_atOnce (delivered rs) (final rs)

/-- Four bytes of room, an interruption in between, and a fifth byte in the middle of the
second report: the program is cut, and its last byte is not seen. -/
theorem loadCode_cut_in_report :
    let L : Layout := { ram := 6, stack := 2 }
    let rs := [.got 2 [1, 2, 9], .failed (.plain .interrupted), .exactly [3, 4, 5]]
    (Source.Follows rs rs ∧ ∀ r ∈ rs, r.Honest) ∧
      (((Memory.zeroed L).loadCode rs).outcome, ((Memory.zeroed L).loadCode rs).memory) =
        (.error (.failure (.tooLarge 4)), ⟨#v[0, 0, 1, 2, 3, 4], 4⟩) := by
  intro L rs
  have honest : ∀ r ∈ rs, r.Honest := by decide
  refine ⟨⟨Source.follows_self rs, honest⟩, ?_⟩
  rw [loadCode_eq_loadAtOnce (Memory.zeroed L) (Source.follows_self rs) honest]
  rfl

end FlatMemory
