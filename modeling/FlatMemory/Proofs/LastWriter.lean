import FlatMemory.Operation
import FlatMemory.Proofs.Collecting

/-!
# The last writer

Whatever is done with a memory, and in whatever order: a byte is what the last command put
there that put anything there at all.  Only stores that succeed and loads that commit put
anything anywhere, and only loads that commit change the code length.

## Main definitions

* `Layout.collected` — the bytes that a load has collected when it ends.
* `Command.committed?` — the code of a load that was answered as one that commits.
* `Command.put?` — the byte that a command put at an address.

## Main results

* `Memory.getElem_conclude`, `Memory.codeLen_conclude` — what the end of a load does to
  the memory.
* `Command.getElem_perform`, `Command.codeLen_perform` — what one command does to a byte
  and to the code length.
* `Memory.getElem_after`, `Memory.codeLen_after` — the same for a run, by induction.
* `getElem_after_new` — **the law of the last writer**, for every run of a new memory.
-/

namespace FlatMemory

universe u v

variable {σ : Type u} {φ : Type v} {L : Layout}

/-! ### What a load writes -/

/-- The bytes that were collected when the collecting came to its end, as far as they are
handed on. -/
def Ending.code : Ending → List UInt8
  | .complete code => code.toList
  | .truncated code => code.toList
  | .broken _ => []
  | .overrun _ => []

/-- The bytes that a load into a memory of the layout has collected when it ends. -/
def Layout.collected [Source σ] (L : Layout) (source : σ) : List UInt8 :=
  (collect L.capacity .start .zero source).ending.code

/-- The byte of a program that comes to stand at an address. -/
def Layout.codeAt? (L : Layout) (a : Nat) (code : List UInt8) : Option UInt8 :=
  if L.stack ≤ a then code[a - L.stack]? else none

/-- The code that a load has committed, by its answer: it succeeded, or its source held
more than the code region. -/
def Response.committed? (r : Response L) (code : List UInt8) : Option (List UInt8) :=
  match r.result with
  | .ok _ => some code
  | .error (.failure (.tooLarge _)) => some code
  | .error _ => none

namespace Memory

/-- A committed program covers its bytes of the code region, and no others. -/
theorem getElem_commit_eq (m : Memory L) (code : Array UInt8) {a : Nat} (h : a < L.ram) :
    (m.commit code).bytes[a] = (L.codeAt? a code.toList).getD m.bytes[a] := by
  rw [getElem_commit]
  unfold Layout.codeAt?
  by_cases hstack : L.stack ≤ a
  · by_cases hcode : a - L.stack < code.size
    · rw [dif_pos ⟨hstack, hcode⟩, if_pos hstack, Array.getElem?_toList,
        Array.getElem?_eq_getElem hcode, Option.getD_some]
    · rw [dif_neg (fun hc => hcode hc.2), if_pos hstack, Array.getElem?_toList,
        Array.getElem?_eq_none (Nat.le_of_not_lt hcode), Option.getD_none]
  · rw [dif_neg (fun hc => hstack hc.1), if_neg hstack, Option.getD_none]

theorem getElem_conclude (m : Memory L) (e : Ending) (tally : Option Tally) {a : Nat}
    (h : a < L.ram) :
    (m.conclude e).memory.bytes[a] =
      (((Response.ofConclusion (m.conclude e) tally).committed? e.code).bind
        (L.codeAt? a)).getD m.bytes[a] := by
  cases e with
  | complete code => exact m.getElem_commit_eq code h
  | truncated code => exact m.getElem_commit_eq code h
  | broken cause => rfl
  | overrun index => rfl

theorem codeLen_conclude (m : Memory L) (e : Ending) (tally : Option Tally) :
    (m.conclude e).memory.codeLen =
      (((Response.ofConclusion (m.conclude e) tally).committed? e.code).map
        List.length).getD m.codeLen := by
  cases e with
  | complete code => rfl
  | truncated code => rfl
  | broken cause => rfl
  | overrun index => rfl

end Memory

/-! ### What a command writes -/

variable [Source σ] [Source φ]

namespace Command

/-- The code that a command has committed, by the response to it. -/
def committed? (c : Command σ φ) (r : Response L) : Option (List UInt8) :=
  match c.operation with
  | .loadCode source => r.committed? (L.collected source)
  | .loadFile path =>
    match c.openFile path with
    | .ok source => r.committed? (L.collected source)
    | .error _ => r.committed? []
  | _ => none

/-- The byte that a command has put at an address, by the response to it. -/
def put? (c : Command σ φ) (r : Response L) (a : Nat) : Option UInt8 :=
  match c.operation, r.result with
  | .store addr value, .ok _ => if addr.toNat = a then some value else none
  | _, _ => (c.committed? r).bind (L.codeAt? a)

/-- **What one command does to a byte**: it puts another in its place, or leaves it. -/
theorem getElem_perform (c : Command σ φ) (m : Memory L) {a : Nat} (h : a < L.ram) :
    (c.perform m).memory.bytes[a] = (c.put? (c.perform m) a).getD m.bytes[a] := by
  obtain ⟨operation, openFile⟩ := c
  cases operation with
  | regions => rfl
  | size => rfl
  | inspect => rfl
  | load addr => rfl
  | fetch pos => rfl
  | store addr value =>
    by_cases haddr : addr.toNat < L.ram
    · have hstored : put? (⟨.store addr value, openFile⟩ : Command σ φ)
          (.reply { m with bytes := m.bytes.set addr.toNat value } (.ok .done)) a =
            if addr.toNat = a then some value else none := rfl
      simp only [perform, Operation.perform, m.store_eq value haddr]
      rw [hstored]
      show (m.bytes.set addr.toNat value)[a] = _
      rw [Vector.getElem_set]
      split <;> rfl
    · simp only [perform, Operation.perform, m.store_eq_error value haddr]
      rfl
  -- the remaining commands are loads, and what they write is settled by their ending
  | loadCode source => exact m.getElem_conclude _ _ h
  | loadFile path =>
    cases hopen : openFile path with
    | error cause =>
      simp only [perform, Operation.perform, Memory.loadFile, put?, committed?, hopen]
      rfl
    | ok source =>
      simp only [perform, Operation.perform, Memory.loadFile, put?, committed?, hopen]
      exact m.getElem_conclude _ none h

/-- What one command does to the code length. -/
theorem codeLen_perform (c : Command σ φ) (m : Memory L) :
    (c.perform m).memory.codeLen =
      ((c.committed? (c.perform m)).map List.length).getD m.codeLen := by
  obtain ⟨operation, openFile⟩ := c
  cases operation with
  | regions => rfl
  | size => rfl
  | inspect => rfl
  | load addr => rfl
  | fetch pos => rfl
  | store addr value =>
    by_cases haddr : addr.toNat < L.ram
    · simp only [perform, Operation.perform, m.store_eq value haddr]
      rfl
    · simp only [perform, Operation.perform, m.store_eq_error value haddr]
      rfl
  | loadCode source => exact m.codeLen_conclude _ _
  | loadFile path =>
    cases hopen : openFile path with
    | error cause =>
      simp only [perform, Operation.perform, Memory.loadFile, committed?, hopen]
      rfl
    | ok source =>
      simp only [perform, Operation.perform, Memory.loadFile, committed?, hopen]
      exact m.codeLen_conclude _ none

end Command

/-! ### Runs -/

/-- The last of several values, each of which may be absent, or else the first value of
all. -/
theorem getLast?_filterMap_cons {α : Type u} {β : Type v} (f : α → Option β) (x : α)
    (xs : List α) (b : β) :
    (((x :: xs).filterMap f).getLast?).getD b =
      ((xs.filterMap f).getLast?).getD ((f x).getD b) := by
  cases hx : f x with
  | none => rw [List.filterMap_cons_none hx, Option.getD_none]
  | some y => rw [List.filterMap_cons_some hx, List.getLast?_cons, Option.getD_some,
      Option.getD_some]

namespace Memory

/-- A byte after a run is the last one that was put there. -/
theorem getElem_after (cs : List (Command σ φ)) : ∀ (m : Memory L) {a : Nat} (h : a < L.ram),
    (m.after cs).bytes[a] =
      (((m.history cs).filterMap fun e => e.1.put? e.2 a).getLast?).getD m.bytes[a] := by
  -- over all memories, since the first command leaves another one to the rest
  induction cs with
  | nil => intro m a h; rfl
  | cons c cs ih =>
    intro m a h
    have hrest := ih (c.perform m).memory h
    rw [history, getLast?_filterMap_cons, ← c.getElem_perform m h, ← hrest]
    rfl

theorem codeLen_after (cs : List (Command σ φ)) : ∀ m : Memory L,
    (m.after cs).codeLen =
      (((m.history cs).filterMap fun e => (e.1.committed? e.2).map List.length).getLast?).getD
        m.codeLen := by
  induction cs with
  | nil => intro m; rfl
  | cons c cs ih =>
    intro m
    have hrest := ih (c.perform m).memory
    rw [history, getLast?_filterMap_cons, ← c.codeLen_perform m, ← hrest]
    rfl

theorem eq_of_allocate {limit : Nat} {m : Memory L} {log : List Event}
    (h : allocate L limit = (.ok m, log)) :
    m = zeroed L ∧ log = [.allocated L.ram L.stack] := by
  unfold allocate at h
  split at h
  · cases h
    exact ⟨rfl, rfl⟩
  · cases h

theorem ram_le_of_allocate {limit : Nat} {m : Memory L} {log : List Event}
    (h : allocate L limit = (.ok m, log)) : L.ram ≤ limit := by
  unfold allocate at h
  split at h
  · assumption
  · cases h

theorem eq_zeroed_of_allocate {limit : Nat} {m : Memory L} {log : List Event}
    (h : allocate L limit = (.ok m, log)) : m = zeroed L :=
  (eq_of_allocate h).1

end Memory

/-- **The law of the last writer.**  After any run of a new memory it has all its bytes.
Each of them is the one that the last command put there that put one there, and zero if
none did; and the code length is that of the code that was committed last, and zero if none
was.  A command puts a byte at an address if it is a store there that succeeds, or a load
that succeeds or is cut short, and has committed code that reaches the address. -/
theorem getElem_after_new {limit : Nat} {m : Memory L} {log : List Event}
    (hnew : Memory.allocate L limit = (.ok m, log)) (cs : List (Command σ φ)) :
    (m.after cs).bytes.toList.length = L.ram ∧
    (∀ (a : Nat) (h : a < L.ram), (m.after cs).bytes[a] =
      (((m.history cs).filterMap fun e => e.1.put? e.2 a).getLast?).getD 0) ∧
    (m.after cs).codeLen =
      (((m.history cs).filterMap fun e =>
        (e.1.committed? e.2).map List.length).getLast?).getD 0 := by
  obtain rfl := Memory.eq_zeroed_of_allocate hnew
  refine ⟨Vector.length_toList, fun a h => ?_, ?_⟩
  · rw [Memory.getElem_after cs (.zeroed L) h, Memory.getElem_zeroed]
  · rw [Memory.codeLen_after cs (.zeroed L), Memory.codeLen_zeroed]

/-- A program of two bytes and then one of a single byte: the second byte of the longer one
stays, over the byte that was stored there first. -/
theorem getElem_after_shorter_load :
    let L : Layout := { ram := 6, stack := 2 }
    let cs : List (Command (List Reading) (List Reading)) :=
      [⟨.store 3 9, fun _ => .ok []⟩, ⟨.loadCode [.exactly [1, 2]], fun _ => .ok []⟩,
        ⟨.loadFile "a", fun _ => .ok [.exactly [7]]⟩, ⟨.store 6 5, fun _ => .ok []⟩]
    Memory.allocate L 6 = (.ok (.zeroed L), [.allocated 6 2]) ∧
      ((Memory.zeroed L).after cs).bytes[3] = 2 ∧ ((Memory.zeroed L).after cs).codeLen = 1 := by
  intro L cs
  have hnew : Memory.allocate L 6 = (.ok (.zeroed L), [.allocated 6 2]) := rfl
  have hlong : Course L.capacity .start [Reading.exactly [1, 2]] [.exactly [1, 2]]
      ⟨#[1, 2], Chunk.zeroed.overwrite [1, 2]⟩ .nothing (.complete #[1, 2]) := ⟨rfl, rfl, rfl⟩
  have hshort : Course L.capacity .start [Reading.exactly [7]] [.exactly [7]]
      ⟨#[7], Chunk.zeroed.overwrite [7]⟩ .nothing (.complete #[7]) := ⟨rfl, rfl, rfl⟩
  obtain ⟨-, hbytes, hlen⟩ := getElem_after_new hnew cs
  refine ⟨hnew, (hbytes 3 (by decide)).trans ?_, hlen.trans ?_⟩
  · simp only [cs, Memory.history, Command.perform, Operation.perform, hlong.loadCode_eq,
      Memory.loadFile, hshort.loadCode_eq, List.filterMap_cons, Command.put?,
      Command.committed?, Layout.collected, hlong.collect_eq, hshort.collect_eq]
    rfl
  · simp only [cs, Memory.history, Command.perform, Operation.perform, hlong.loadCode_eq,
      Memory.loadFile, hshort.loadCode_eq, List.filterMap_cons, Command.committed?,
      Layout.collected, hlong.collect_eq, hshort.collect_eq]
    rfl

end FlatMemory
