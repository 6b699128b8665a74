import FlatMemory.Source

/-!
# Sequences of readings

A load sees its source as a sequence of readings.  This module says what such a
sequence delivers, as far as that does not depend on who asks for it: which reading
is the final one, which bytes come before it, and how many bytes are reported.

## Main definitions

* `Source.after n s` — what is left of a source after `n` readings.
* `Source.Follows s rs` — the source gives the readings of the list, and then nothing.
* `Source.Honest s` — all readings of the source are honest.
* `Reading.isFinal` — nothing more, or a failure that is no interruption.
* `Reading.delivered`, `Reading.final` — the bytes before the first final reading, and
  that reading.
* `Reading.total` — the sum of the reported counts.
* `Source.Delivers s program last` — the bytes before the first final reading of a source,
  and that reading.
* `Source.Exceeds s k` — the source has more than `k` bytes before any final reading.

## Main results

* `Source.readings_add` — the readings of a source in two parts.
* `Reading.length_flatMap_bytes` — honest readings deliver as much as they report.
* `Reading.delivered_append_of_exists`, `Reading.final_append_of_exists` — nothing after
  a final reading matters.
* `Source.Delivers.unique`, `Source.Delivers.length_le` — a source delivers one program, and
  never more than it.
-/

namespace FlatMemory

universe u

variable {σ : Type u}

/-! ### The readings of a source -/

namespace Source

/-- What is left of a source after `n` readings. -/
def after [Source σ] : Nat → σ → σ
  | 0, s => s
  | n + 1, s => after n (read s).2

/-- The source gives the readings of the list, and then nothing more for ever. -/
def Follows [Source σ] (s : σ) (rs : List Reading) : Prop :=
  ∀ n, readings n s = readings n rs

variable [Source σ]

@[simp] theorem after_zero (s : σ) : after 0 s = s := rfl

@[simp] theorem after_succ (n : Nat) (s : σ) : after (n + 1) s = after n (read s).2 := rfl

@[simp] theorem readings_zero (s : σ) : readings 0 s = [] := rfl

@[simp] theorem readings_succ (n : Nat) (s : σ) :
    readings (n + 1) s = (read s).1 :: readings n (read s).2 := rfl

@[simp] theorem length_readings : ∀ (n : Nat) (s : σ), (readings n s).length = n := by
  intro n
  induction n with
  | zero => intro s; rfl
  | succ n ih => intro s; simp [ih]

theorem readings_add : ∀ (m n : Nat) (s : σ),
    readings (m + n) s = readings m s ++ readings n (after m s) := by
  intro m
  induction m with
  | zero => intro n s; simp
  | succ m ih =>
    intro n s
    rw [Nat.add_right_comm, readings_succ, ih, readings_succ, after_succ, List.cons_append]

theorem after_add (m n : Nat) : ∀ s : σ, after (m + n) s = after n (after m s) := by
  induction m with
  | zero => intro s; rw [Nat.zero_add, after_zero]
  | succ m ih => intro s; rw [Nat.add_right_comm, after_succ, after_succ, ih]

theorem readings_list : ∀ (n : Nat) (rs : List Reading),
    readings n rs = (rs ++ List.replicate n Reading.nothing).take n := by
  intro n
  induction n with
  | zero => intro rs; simp
  | succ n ih =>
    intro rs
    cases rs with
    | nil => simp [ih, List.replicate_succ]
    | cons r rs =>
      rw [readings_succ, read_cons, ih, List.cons_append, List.take_succ_cons]
      congr 1
      -- one `nothing` more lies beyond what is taken
      rw [List.take_append, List.take_append]
      simp [List.take_replicate, Nat.min_eq_left (Nat.le_succ_of_le (Nat.sub_le n rs.length))]

theorem follows_self (rs : List Reading) : Follows rs rs := fun _ => rfl

/-- Every reading of the source is honest, however often it is read. -/
def Honest (s : σ) : Prop :=
  ∀ n, ∀ r ∈ readings n s, r.Honest

theorem Honest.after {s : σ} (h : Honest s) (n : Nat) : Honest (Source.after n s) := by
  intro k r hr
  refine h (n + k) r ?_
  rw [readings_add]
  exact List.mem_append_right _ hr

theorem Follows.honest {s : σ} {rs : List Reading} (h : Follows s rs)
    (hrs : ∀ r ∈ rs, r.Honest) : Honest s := by
  intro n r hr
  rw [h n, readings_list] at hr
  rcases List.mem_append.mp (List.mem_of_mem_take hr) with hr | hr
  · exact hrs r hr
  · rw [List.eq_of_mem_replicate hr]; decide

end Source

/-! ### What readings deliver -/

namespace Reading

/-- Whether a source has nothing to give after the reading: it has nothing more, or it
failed and was not only interrupted. -/
def isFinal : Reading → Bool
  | got n _ => n == 0
  | failed cause => !cause.isInterrupted

/-- The bytes that a reading delivers, if it is honest. -/
def bytes : Reading → List UInt8
  | got n written => written.take n
  | failed _ => []

def total : List Reading → Nat
  | [] => 0
  | r :: rs => r.count + total rs

/-- The bytes that honest readings deliver before the first final one. -/
def delivered (rs : List Reading) : List UInt8 :=
  (rs.takeWhile fun r => !r.isFinal).flatMap bytes

/-- The first final reading.  Readings that come to an end without one are followed by
nothing. -/
def final (rs : List Reading) : Reading :=
  (rs.find? isFinal).getD nothing

@[simp] theorem total_nil : total [] = 0 := rfl

@[simp] theorem total_cons (r : Reading) (rs : List Reading) :
    total (r :: rs) = r.count + total rs := rfl

@[simp] theorem total_append (rs rs' : List Reading) :
    total (rs ++ rs') = total rs + total rs' := by
  induction rs with
  | nil => simp
  | cons r rs ih => simp [ih, Nat.add_assoc]

@[simp] theorem isFinal_nothing : nothing.isFinal = true := rfl

theorem Honest.length_bytes {r : Reading} (h : r.Honest) : r.bytes.length = r.count := by
  cases r with
  | got n written => exact List.length_take_of_le h.1
  | failed cause => rfl

theorem length_flatMap_bytes {rs : List Reading} (h : ∀ r ∈ rs, r.Honest) :
    (rs.flatMap bytes).length = total rs := by
  induction rs with
  | nil => rfl
  | cons r rs ih =>
    have hr := (h r List.mem_cons_self).length_bytes
    have hrs := ih fun x hx => h x (List.mem_cons_of_mem r hx)
    rw [List.flatMap_cons, List.length_append, hr, hrs, total_cons]

/-! ### Final readings -/

@[simp] theorem delivered_nil : delivered [] = [] := rfl

@[simp] theorem final_nil : final [] = nothing := rfl

theorem delivered_cons_final {r : Reading} (h : r.isFinal = true) (rs : List Reading) :
    delivered (r :: rs) = [] := by
  simp [delivered, h]

theorem final_cons_final {r : Reading} (h : r.isFinal = true) (rs : List Reading) :
    final (r :: rs) = r := by
  simp [final, h]

theorem delivered_cons {r : Reading} (h : r.isFinal = false) (rs : List Reading) :
    delivered (r :: rs) = r.bytes ++ delivered rs := by
  simp [delivered, h]

theorem final_cons {r : Reading} (h : r.isFinal = false) (rs : List Reading) :
    final (r :: rs) = final rs := by
  simp [final, h]

/-- Readings none of which is final deliver all their bytes, and more may follow. -/
theorem delivered_append {before : List Reading} (h : ∀ r ∈ before, r.isFinal = false)
    (rs : List Reading) :
    delivered (before ++ rs) = before.flatMap bytes ++ delivered rs := by
  induction before with
  | nil => rfl
  | cons r before ih =>
    have hbefore := ih fun x hx => h x (List.mem_cons_of_mem r hx)
    rw [List.cons_append, delivered_cons (h r List.mem_cons_self), hbefore, List.flatMap_cons,
      List.append_assoc]

theorem final_append {before : List Reading} (h : ∀ r ∈ before, r.isFinal = false)
    (rs : List Reading) : final (before ++ rs) = final rs := by
  induction before with
  | nil => rfl
  | cons r before ih =>
    rw [List.cons_append, final_cons (h r List.mem_cons_self)]
    exact ih fun x hx => h x (List.mem_cons_of_mem r hx)

/-- Nothing is delivered after a final reading. -/
theorem delivered_append_of_exists {before : List Reading}
    (h : ∃ r ∈ before, r.isFinal = true) (rs : List Reading) :
    delivered (before ++ rs) = delivered before := by
  induction before with
  | nil => simp at h
  | cons r before ih =>
    rw [List.cons_append]
    cases hr : r.isFinal with
    | true => rw [delivered_cons_final hr, delivered_cons_final hr]
    | false =>
      have hbefore : ∃ x ∈ before, x.isFinal = true := by simpa [hr] using h
      rw [delivered_cons hr, delivered_cons hr, ih hbefore]

theorem final_append_of_exists {before : List Reading}
    (h : ∃ r ∈ before, r.isFinal = true) (rs : List Reading) :
    final (before ++ rs) = final before := by
  induction before with
  | nil => simp at h
  | cons r before ih =>
    rw [List.cons_append]
    cases hr : r.isFinal with
    | true => rw [final_cons_final hr, final_cons_final hr]
    | false =>
      have hbefore : ∃ x ∈ before, x.isFinal = true := by simpa [hr] using h
      rw [final_cons hr, final_cons hr, ih hbefore]

theorem forall_or_exists_final (rs : List Reading) :
    (∀ r ∈ rs, r.isFinal = false) ∨ ∃ r ∈ rs, r.isFinal = true := by
  by_cases h : ∃ r ∈ rs, r.isFinal = true
  · exact .inr h
  · refine .inl fun r hr => ?_
    rw [← Bool.not_eq_true]
    exact fun hfinal => h ⟨r, hr, hfinal⟩

/-- A list delivers the same when it is followed by readings of nothing. -/
theorem delivered_append_replicate (rs : List Reading) (n : Nat) :
    delivered (rs ++ List.replicate n nothing) = delivered rs := by
  have hnothing : delivered (List.replicate n nothing) = [] := by
    cases n with
    | zero => rfl
    | succ n => exact delivered_cons_final isFinal_nothing _
  rcases forall_or_exists_final rs with h | h
  · have hrs := delivered_append h []
    rw [List.append_nil] at hrs
    rw [delivered_append h, hrs, hnothing, delivered_nil]
  · exact delivered_append_of_exists h _

theorem final_append_replicate (rs : List Reading) (n : Nat) :
    final (rs ++ List.replicate n nothing) = final rs := by
  have hnothing : final (List.replicate n nothing) = nothing := by
    cases n with
    | zero => rfl
    | succ n => exact final_cons_final isFinal_nothing _
  rcases forall_or_exists_final rs with h | h
  · have hrs := final_append h []
    rw [List.append_nil] at hrs
    rw [final_append h, hrs, hnothing, final_nil]
  · exact final_append_of_exists h _

theorem length_delivered_le (rs rs' : List Reading) :
    (delivered rs).length ≤ (delivered (rs ++ rs')).length := by
  rcases forall_or_exists_final rs with h | h
  · have hrs := delivered_append h []
    rw [List.append_nil, delivered_nil, List.append_nil] at hrs
    rw [delivered_append h, hrs, List.length_append]
    exact Nat.le_add_right _ _
  · have heq := delivered_append_of_exists h rs'
    exact Nat.le_of_eq (congrArg List.length heq.symm)

end Reading

/-! ### What a source delivers -/

namespace Source

variable [Source σ]

open Reading (delivered final)

/-- The source comes to a final reading, which is `last`, and delivers the program before
it. -/
def Delivers (s : σ) (program : List UInt8) (last : Reading) : Prop :=
  ∃ n, (∃ r ∈ readings n s, r.isFinal = true) ∧
    delivered (readings n s) = program ∧ final (readings n s) = last

/-- The source delivers more than `k` bytes before it comes to a final reading, if it does
come to one. -/
def Exceeds (s : σ) (k : Nat) : Prop :=
  ∃ n, k < (delivered (readings n s)).length

theorem readings_of_le (s : σ) {m n : Nat} (h : m ≤ n) :
    readings n s = readings m s ++ readings (n - m) (after m s) := by
  rw [← readings_add, Nat.add_sub_of_le h]

/-- The readings after a final one make no difference. -/
theorem delivered_readings_of_le {s : σ} {m n : Nat} (h : m ≤ n)
    (hfinal : ∃ r ∈ readings m s, r.isFinal = true) :
    delivered (readings n s) = delivered (readings m s) ∧
      final (readings n s) = final (readings m s) := by
  rw [readings_of_le s h]
  exact ⟨Reading.delivered_append_of_exists hfinal _, Reading.final_append_of_exists hfinal _⟩

/-- A source delivers one program, and comes to one final reading. -/
theorem Delivers.unique {s : σ} {program program' : List UInt8} {last last' : Reading}
    (h : Delivers s program last) (h' : Delivers s program' last') :
    program = program' ∧ last = last' := by
  obtain ⟨m, hm, rfl, rfl⟩ := h
  obtain ⟨n, hn, rfl, rfl⟩ := h'
  rcases Nat.le_total m n with hle | hle
  · obtain ⟨hdelivered, hfinal⟩ := delivered_readings_of_le hle hm
    exact ⟨hdelivered.symm, hfinal.symm⟩
  · exact delivered_readings_of_le hle hn

/-- A source has delivered no more than its program at any time. -/
theorem Delivers.length_le {s : σ} {program : List UInt8} {last : Reading}
    (h : Delivers s program last) (n : Nat) :
    (delivered (readings n s)).length ≤ program.length := by
  obtain ⟨m, hm, rfl, -⟩ := h
  rcases Nat.le_total m n with hle | hle
  · have heq := (delivered_readings_of_le hle hm).1
    exact Nat.le_of_eq (congrArg List.length heq)
  · rw [readings_of_le s hle]
    exact Reading.length_delivered_le _ _

end Source

end FlatMemory
