import FlatMemory.Proofs.LastWriter

/-!
# What the log of a run says

The log of a memory tells of its beginning and its end and of every load, and of nothing else.
What it says of a command is settled by the answer to the command, so no load ends otherwise
than the log says; and since a load that is reported is a load that was committed, the log
also tells the code length.

## Main definitions

* `Entry`, `Event.entry` — an event as it is written down.
* `Layout.entries`, `Command.entries` — what the log says of a load and of a command, by the
  answer.
* `Event.codeLen?`, `lastLoaded` — the number of bytes that an event reports as loaded, and
  the last one in a log.
* `Memory.log` — the events of a run.

## Main results

* `Memory.entries_conclude`, `Memory.codeLen_conclude_log` — the end of a load.
* `Command.entries_perform`, `Command.codeLen_perform_log` — one command.
* `Memory.entries_log`, `Memory.codeLen_after_log` — a run, by induction.
* `log_of_life` — **the log of a memory from its beginning to its end.**
-/

namespace FlatMemory

universe u v

variable {σ : Type u} {φ : Type v} {L : Layout}

/-! ### Entries -/

/-- An event as it is written down. -/
structure Entry where
  level : Level
  message : String
  fields : List (String × String)
  deriving DecidableEq, Repr

/-- How an event is written down. -/
def Event.entry (e : Event) : Entry :=
  ⟨e.level, e.message, e.fields⟩

/-- What the log says of a load, by the answer: a load that succeeded is reported with its
length, a load that was cut is a warning, and nothing is said of any other. -/
def Layout.entries (L : Layout) : Except Fault Value → List Entry
  | .ok (.count n) =>
    [⟨.debug, "code loaded", [("len", toString n), ("offset", toString L.stack)]⟩]
  | .error (.failure (.tooLarge _)) =>
    [⟨.warn, "code truncated at the end of ram", [("capacity", toString L.capacity)]⟩]
  | _ => []

/-- What the log says of a command, by the answer.  Only loads are mentioned.  A load from a file is
announced if the file could be opened; what comes after that depends on the answer alone. -/
def Command.entries (c : Command σ φ) (L : Layout) (answer : Except Fault Value) : List Entry :=
  match c.operation with
  | .loadCode _ => L.entries answer
  | .loadFile path =>
    match c.openFile path with
    | .ok _ => ⟨.debug, "reading code file", [("path", path)]⟩ :: L.entries answer
    | .error _ => L.entries answer
  | _ => []

/-- The number of bytes that an event reports as loaded. -/
def Event.codeLen? : Event → Option Nat
  | .loaded len _ => some len
  | .truncated capacity => some capacity
  | _ => none

/-- The last number of bytes that a log reports as loaded, or else `n`. -/
def lastLoaded (log : List Event) (n : Nat) : Nat :=
  ((log.filterMap Event.codeLen?).getLast?).getD n

theorem lastLoaded_append (log log' : List Event) (n : Nat) :
    lastLoaded (log ++ log') n = lastLoaded log' (lastLoaded log n) := by
  unfold lastLoaded
  rw [List.filterMap_append, List.getLast?_append]
  cases (log'.filterMap Event.codeLen?).getLast? with
  | none => rfl
  | some k => rfl

/-! ### The end of a load -/

namespace Memory

theorem entries_conclude (m : Memory L) (e : Ending) :
    (m.conclude e).log.map Event.entry = L.entries ((m.conclude e).outcome.map .count) := by
  cases e with
  | complete code => rfl
  | truncated code => rfl
  | broken cause => rfl
  | overrun index => rfl

variable [Source σ]

theorem codeLen_conclude_log (m : Memory L) {source : σ} {before : List Reading}
    {filled : Staging} {last : Reading} {e : Ending}
    (h : Course L.capacity .start source before filled last e) :
    (m.conclude e).memory.codeLen = lastLoaded (m.conclude e).log m.codeLen := by
  cases e with
  | complete code => rfl
  | truncated code =>
    -- the warning reports the room, and the code that was cut fills it
    exact h.size_of_truncated
  | broken cause => rfl
  | overrun index => rfl

theorem codeLen_loadCode_log (m : Memory L) (source : σ) :
    (m.loadCode source).memory.codeLen = lastLoaded (m.loadCode source).log m.codeLen := by
  obtain ⟨before, filled, last, ending, hcourse⟩ := exists_course L.capacity .start source
  rw [hcourse.loadCode_eq]
  exact m.codeLen_conclude_log hcourse

end Memory

/-! ### One command -/

namespace Command

variable [Source σ] [Source φ]

/-- **The log of a command says what the answer says.** -/
theorem entries_perform (c : Command σ φ) (m : Memory L) :
    (c.perform m).log.map Event.entry = c.entries L (c.perform m).result := by
  obtain ⟨operation, openFile⟩ := c
  cases operation with
  | regions => rfl
  | size => rfl
  | inspect => rfl
  | load addr => rfl
  | fetch pos => rfl
  | store addr value =>
    simp only [perform, Operation.perform]
    split
    · rfl
    · rfl
  | loadCode source => exact m.entries_conclude _
  | loadFile path =>
    cases hopen : openFile path with
    | error cause =>
      simp only [perform, Operation.perform, Memory.loadFile, entries, hopen]
      rfl
    | ok source =>
      simp only [perform, Operation.perform, Memory.loadFile, entries, hopen]
      have hload := m.entries_conclude (collect L.capacity .start .zero source).ending
      exact congrArg (Event.entry (.reading path) :: ·) hload

theorem codeLen_perform_log (c : Command σ φ) (m : Memory L) :
    (c.perform m).memory.codeLen = lastLoaded (c.perform m).log m.codeLen := by
  obtain ⟨operation, openFile⟩ := c
  cases operation with
  | regions => rfl
  | size => rfl
  | inspect => rfl
  | load addr => rfl
  | fetch pos => rfl
  | store addr value =>
    by_cases haddr : addr.toNat < L.ram
    · simp only [perform, Operation.perform, m.store_eq value haddr]
      rfl
    · simp only [perform, Operation.perform, m.store_eq_error value haddr]
      rfl
  | loadCode source => exact m.codeLen_loadCode_log source
  | loadFile path =>
    cases hopen : openFile path with
    | error cause =>
      simp only [perform, Operation.perform, Memory.loadFile, hopen]
      rfl
    | ok source =>
      simp only [perform, Operation.perform, Memory.loadFile, hopen]
      exact m.codeLen_loadCode_log source

end Command

/-! ### Runs -/

namespace Memory

variable [Source σ] [Source φ]

/-- The events of a run, in order. -/
def log (m : Memory L) (cs : List (Command σ φ)) : List Event :=
  (m.history cs).flatMap fun e => e.2.log

/-- The log of a run says what the answers say, in their order. -/
theorem entries_log (cs : List (Command σ φ)) : ∀ m : Memory L,
    (m.log cs).map Event.entry =
      (m.history cs).flatMap fun e => e.1.entries L e.2.result := by
  induction cs with
  | nil => intro m; rfl
  | cons c cs ih =>
    intro m
    have hrest := ih (c.perform m).memory
    unfold log at hrest ⊢
    rw [history, List.flatMap_cons, List.flatMap_cons, List.map_append, c.entries_perform m,
      hrest]

theorem codeLen_after_log (cs : List (Command σ φ)) : ∀ m : Memory L,
    (m.after cs).codeLen = lastLoaded (m.log cs) m.codeLen := by
  induction cs with
  | nil => intro m; rfl
  | cons c cs ih =>
    intro m
    have hrest := ih (c.perform m).memory
    have hlog : m.log (c :: cs) = (c.perform m).log ++ (c.perform m).memory.log cs := rfl
    rw [hlog, lastLoaded_append, ← c.codeLen_perform_log m, ← hrest]
    rfl

end Memory

/-- **The log of a memory from its beginning to its end.**  It says that the bytes were
reserved, then what the answer to each command makes it say, and in the end that the bytes
were given back.  A load that succeeds is reported with its length and the start of the code
region, a load that is cut with the size of the code region and as a warning, a load from a
file that could be opened is announced, and nothing else is mentioned.  After any run the code
length is the number of bytes that the log last reported as loaded, and zero if it has not
reported any. -/
theorem log_of_life [Source σ] [Source φ] {limit : Nat} {m : Memory L} {log : List Event}
    (hnew : Memory.allocate L limit = (.ok m, log)) (cs : List (Command σ φ)) :
    (log ++ m.log cs ++ (m.after cs).release).map Event.entry =
      ⟨.debug, "ram allocated", [("size", toString L.ram), ("stack", toString L.stack)]⟩ ::
        ((m.history cs).flatMap fun e => e.1.entries L e.2.result) ++
          [⟨.debug, "ram released", [("size", toString L.ram)]⟩] ∧
    (m.after cs).codeLen =
      (((log ++ m.log cs).filterMap Event.codeLen?).getLast?).getD 0 := by
  obtain ⟨rfl, rfl⟩ := Memory.eq_of_allocate hnew
  refine ⟨?_, ?_⟩
  · rw [List.map_append, List.map_append, Memory.entries_log]
    rfl
  · rw [Memory.codeLen_after_log]
    rfl

/-- A file that is not there, a file that is too long, a store, a source that fails and a
program of one byte: the log mentions the second and the last. -/
theorem log_of_life_with_failures :
    let L : Layout := { ram := 6, stack := 2 }
    let m := Memory.zeroed L
    let cs : List (Command (List Reading) (List Reading)) :=
      [⟨.loadFile "a", fun _ => .error (.os .noEntry)⟩,
        ⟨.loadFile "b", fun _ => .ok [.exactly [1, 2, 3, 4, 5]]⟩,
        ⟨.store 3 9, fun _ => .ok []⟩,
        ⟨.loadCode [.exactly [8, 8], .failed (.plain .other)], fun _ => .ok []⟩,
        ⟨.loadCode [.exactly [7]], fun _ => .ok []⟩]
    Memory.allocate L 6 = (.ok m, [.allocated 6 2]) ∧
      ([Event.allocated 6 2] ++ m.log cs ++ (m.after cs).release).map Event.entry =
        [⟨.debug, "ram allocated", [("size", toString 6), ("stack", toString 2)]⟩,
          ⟨.debug, "reading code file", [("path", "b")]⟩,
          ⟨.warn, "code truncated at the end of ram", [("capacity", toString 4)]⟩,
          ⟨.debug, "code loaded", [("len", toString 1), ("offset", toString 2)]⟩,
          ⟨.debug, "ram released", [("size", toString 6)]⟩] ∧
      (m.after cs).codeLen = 1 := by
  intro L m cs
  have hnew : Memory.allocate L 6 = (.ok m, [.allocated 6 2]) := rfl
  have hcut : Course L.capacity .start [Reading.exactly [1, 2, 3, 4, 5]] [] .start
      (.exactly [1, 2, 3, 4, 5]) (.truncated #[1, 2, 3, 4]) := ⟨rfl, rfl, rfl⟩
  have hfailed : Course L.capacity .start [Reading.exactly [8, 8], .failed (.plain .other)]
      [.exactly [8, 8]] ⟨#[8, 8], Chunk.zeroed.overwrite [8, 8]⟩ (.failed (.plain .other))
      (.broken (.plain .other)) := ⟨rfl, rfl, rfl⟩
  have hwhole : Course L.capacity .start [Reading.exactly [7]] [.exactly [7]]
      ⟨#[7], Chunk.zeroed.overwrite [7]⟩ .nothing (.complete #[7]) := ⟨rfl, rfl, rfl⟩
  obtain ⟨hlog, hlen⟩ := log_of_life hnew cs
  refine ⟨hnew, hlog.trans ?_, hlen.trans ?_⟩
  · simp only [cs, Memory.history, Command.perform, Operation.perform, Memory.loadFile,
      hcut.loadCode_eq, hfailed.loadCode_eq, hwhole.loadCode_eq]
    rfl
  · simp only [cs, Memory.log, Memory.history, Command.perform, Operation.perform,
      Memory.loadFile, hcut.loadCode_eq, hfailed.loadCode_eq, hwhole.loadCode_eq]
    rfl

end FlatMemory
