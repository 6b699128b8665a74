import FlatMemory.Proofs.LastWriter
import FlatMemory.Proofs.Outcome

/-!
# The code that a load commits

A load that commits puts what it has collected at the start of the code region, and from
there it can be read back by the code length.

## Main definitions

* `Memory.codeBytes` — the bytes of the code region.
* `Memory.code` — those of them that the last load put there.
* `Conclusion.Commits`, `Ending.Commits` — the load has put code into the memory.

## Main results

* `Memory.code_commit` — code that fits is found again where it was committed.
* `Layout.length_collected_le`, `Layout.length_collected_of_truncated` — a load collects no more
  than the code region holds, and fills it if it is cut.
* `Memory.loadCode_of_commits` — what a load that commits leaves behind.
-/

namespace FlatMemory

universe u

variable {σ : Type u} {L : Layout}

/-! ### Code in a memory -/

namespace Memory

/-- The bytes of the code region. -/
def codeBytes (m : Memory L) : List UInt8 :=
  m.bytes.toList.drop L.stack

/-- The program that was loaded last, as it stands in the memory now: as many bytes from the
start of the code region on as the code length says. -/
def code (m : Memory L) : List UInt8 :=
  m.codeBytes.take m.codeLen

@[simp] theorem length_codeBytes (m : Memory L) : m.codeBytes.length = L.capacity := by
  unfold codeBytes Layout.capacity
  rw [List.length_drop, Vector.length_toList]

theorem getElem_codeBytes (m : Memory L) (i : Nat) (h : i < m.codeBytes.length)
    (ha : L.stack + i < L.ram) : m.codeBytes[i] = m.bytes[L.stack + i] := by
  simp only [codeBytes, List.getElem_drop, Vector.getElem_toList]

/-- Code that fits is found again where it was committed. -/
theorem code_commit (m : Memory L) {code : List UInt8} (fits : code.length ≤ L.capacity) :
    (m.commit code.toArray).code = code := by
  have hram := L.stack_add_capacity
  unfold Memory.code
  apply List.ext_getElem
  · rw [codeLen_commit, List.length_take, length_codeBytes, List.size_toArray]
    omega
  · intro i hi hi'
    have ha : L.stack + i < L.ram := by omega
    rw [List.getElem_take, getElem_codeBytes _ i _ ha, getElem_commit,
      dif_pos ⟨Nat.le_add_right _ _, by rw [List.size_toArray]; omega⟩]
    simp

theorem eq_of_getElem {m m' : Memory L} (hlen : m.codeLen = m'.codeLen)
    (h : ∀ (a : Nat) (h : a < L.ram), m.bytes[a] = m'.bytes[a]) : m = m' := by
  obtain ⟨bytes, codeLen⟩ := m
  obtain ⟨bytes', codeLen'⟩ := m'
  obtain rfl : codeLen = codeLen' := hlen
  obtain rfl : bytes = bytes' := Vector.ext h
  rfl

end Memory

/-! ### What is collected -/

section Collected

variable [Source σ]

theorem Course.length_code_le {capacity : Nat} {source : σ} {before : List Reading}
    {filled : Staging} {last : Reading} {ending : Ending}
    (h : Course capacity .start source before filled last ending) :
    ending.code.length ≤ capacity := by
  cases ending with
  | complete code => exact h.size_of_complete
  | truncated code => exact Nat.le_of_eq h.size_of_truncated
  | broken cause => exact Nat.zero_le _
  | overrun index => exact Nat.zero_le _

theorem Layout.length_collected_le (L : Layout) (source : σ) :
    (L.collected source).length ≤ L.capacity := by
  obtain ⟨before, filled, last, ending, hcourse⟩ := exists_course L.capacity .start source
  unfold Layout.collected
  rw [hcourse.collect_eq]
  exact hcourse.length_code_le

theorem Layout.length_collected_of_truncated {source : σ} {code : Array UInt8}
    (h : (collect L.capacity .start .zero source).ending = .truncated code) :
    (L.collected source).length = L.capacity := by
  obtain ⟨before, filled, last, ending, hcourse⟩ := exists_course L.capacity .start source
  unfold Layout.collected
  rw [hcourse.collect_eq] at h ⊢
  cases h
  exact hcourse.size_of_truncated

end Collected

/-! ### Loads that commit -/

/-- The load has put code into the memory: it succeeded, or its source held more than the code
region. -/
def Conclusion.Commits (c : Conclusion L) : Prop :=
  (∃ n, c.outcome = .ok n) ∨ c.outcome = .error (.failure (.tooLarge L.capacity))

/-- The ending puts code into the memory. -/
def Ending.Commits : Ending → Prop
  | .complete _ => True
  | .truncated _ => True
  | .broken _ => False
  | .overrun _ => False

namespace Memory

theorem commits_conclude_iff (m : Memory L) (e : Ending) :
    (m.conclude e).Commits ↔ e.Commits := by
  cases e <;> simp [Conclusion.Commits, conclude, Ending.Commits]

theorem memory_conclude (m : Memory L) {e : Ending} (h : e.Commits) :
    (m.conclude e).memory = m.commit e.code.toArray := by
  cases e with
  | complete code => rfl
  | truncated code => rfl
  | broken cause => exact h.elim
  | overrun index => exact h.elim

/-- **A load that commits** leaves what it has collected in the memory, and changes nothing
else. -/
theorem loadCode_of_commits [Source σ] (m : Memory L) {source : σ}
    (h : (m.loadCode source).Commits) :
    (m.loadCode source).memory = m.commit (L.collected source).toArray ∧
      (m.loadCode source).memory.code = L.collected source := by
  have hcommits := (m.commits_conclude_iff _).mp h
  have hmemory : (m.loadCode source).memory = m.commit (L.collected source).toArray :=
    m.memory_conclude hcommits
  refine ⟨hmemory, ?_⟩
  rw [hmemory, m.code_commit (L.length_collected_le source)]

end Memory

end FlatMemory
