import FlatMemory.Process
import FlatMemory.Proofs.Collecting

/-!
# A process under a log

A log can do anything to the console when an event comes before it.  Of a log that only selects
it is assumed that it shows an event or passes over it, and leaves all else alone.  Under such a
log each step of the program adds its lines to the standard output and, of its events, those that
are admitted to the standard error; so does the whole program, and whether it goes on after a step
does not depend on the log.

## Main definitions

* `Selects record admits` — the log shows the admitted events and does nothing else.
* `Logging.InForce` — the filter that is in force, and what is said about it.
* `Console.Grows` — lines and events are added to a console.

## Main results

* `Console.grows_report` — one event after the other.
* `Process.printAll_run` — the listing prints what can be fetched.
* `Process.list_run_of_ok`, `Process.list_run_of_error` — the program, by the end of its load.
* `Process.main_of_ok`, `Process.main_of_error` — the exit.
-/

namespace FlatMemory

universe u

variable {σ : Type u} {α π ω φ : Type} {L : Layout}

/-! ### Logs that select -/

/-- Under `record` the admitted events are shown, each at the end of the standard error, and nothing
else happens.  The line of an event may depend on all that was written before. -/
structure Selects (record : Event → Console → Console) (admits : Event → Bool) : Prop where
  shown : ∀ e c, admits e = true → ∃ line, record e c = c.note [.event e line]
  hidden : ∀ e c, admits e = false → record e c = c

/-- Each filter of a log selects the events that it admits. -/
def Logging.Selects (logging : Logging ω φ) (admits : φ → Event → Bool) : Prop :=
  ∀ f, FlatMemory.Selects (logging.record f) (admits f)

/-- The filter that is in force, and what is said about it. -/
inductive Logging.InForce (logging : Logging ω φ) (environment : Option ω) (level : String) :
    φ → List String → Prop
  /-- The filter of the environment, if it can be read. -/
  | environment {text : ω} {f : φ} : environment = some text → logging.parse? text = some f →
      InForce logging environment level f []
  /-- Otherwise that of the log level. -/
  | level : (∀ text, environment = some text → logging.parse? text = none) →
      InForce logging environment level (logging.ofLevel level) (logging.complaints level)

namespace Console

/-- From one console to another lines were printed, and of some events the admitted ones were
shown. -/
structure Grows (admits : Event → Bool) (c c' : Console) (events : List Event)
    (lines : List String) : Prop where
  stdout : c'.stdout = c.stdout ++ lines
  stderr : ∃ notes, c'.stderr = c.stderr ++ notes ∧
    notes.map Note.event? = (events.filter admits).map some

variable {record : Event → Console → Console} {admits : Event → Bool} {c c' c'' : Console}
  {events events' : List Event} {lines lines' : List String}

theorem Grows.refl (c : Console) : Grows admits c c [] [] :=
  ⟨(List.append_nil _).symm, [], (List.append_nil _).symm, rfl⟩

theorem Grows.trans (h : Grows admits c c' events lines)
    (h' : Grows admits c' c'' events' lines') :
    Grows admits c c'' (events ++ events') (lines ++ lines') := by
  obtain ⟨notes, hnotes, hevents⟩ := h.stderr
  obtain ⟨notes', hnotes', hevents'⟩ := h'.stderr
  refine ⟨?_, notes ++ notes', ?_, ?_⟩
  · rw [h'.stdout, h.stdout, List.append_assoc]
  · rw [hnotes', hnotes, List.append_assoc]
  · rw [List.map_append, hevents, hevents', List.filter_append, List.map_append]

theorem grows_print (c : Console) (line : String) : Grows admits c (c.print line) [] [line] :=
  ⟨rfl, [], (List.append_nil _).symm, rfl⟩

theorem grows_record (h : Selects record admits) (e : Event) (c : Console) :
    Grows admits c (record e c) [e] [] := by
  cases he : admits e with
  | true =>
    obtain ⟨line, hline⟩ := h.shown e c he
    rw [hline]
    exact ⟨(List.append_nil _).symm, _, rfl, by rw [List.filter_cons_of_pos he]; rfl⟩
  | false =>
    rw [h.hidden e c he]
    exact ⟨(List.append_nil _).symm, [], (List.append_nil _).symm,
      by rw [List.filter_cons_of_neg (by simp [he])]; rfl⟩

/-- Of events that come before the log one after the other the admitted ones are shown. -/
theorem grows_report (h : Selects record admits) (events : List Event) (c : Console) :
    Grows admits c (events.foldl (fun c e => record e c) c) events [] := by
  induction events generalizing c with
  | nil => exact .refl c
  | cons e events ih => exact (grows_record h e c).trans (ih (record e c))

end Console

/-! ### Steps of the program -/

namespace Process

open Console (Grows)

variable {record : Event → Console → Console} {admits : Event → Bool}

theorem report_run (record : Event → Console → Console) (events : List Event) (c : Console) :
    (report record events).run c = .ok () (events.foldl (fun c e => record e c) c) := rfl

theorem bind_run_of_ok {β γ : Type} {p : Process β} {q : β → Process γ} {c c' : Console} {b : β}
    (h : p.run c = .ok b c') : (p >>= q).run c = (q b).run c' := by
  rw [EStateM.run_bind, h]

theorem bind_run_of_error {β γ : Type} {p : Process β} {q : β → Process γ} {c c' : Console}
    {stop : Stop} (h : p.run c = .error stop c') : (p >>= q).run c = .error stop c' := by
  rw [EStateM.run_bind, h]

theorem allocate_run (h : Selects record admits) (c : Console) :
    ∃ c', (allocate record).run c = .ok (.zeroed .standard) c' ∧
      Grows admits c c' [.allocated 256 64] [] :=
  ⟨_, rfl, Console.grows_report h [.allocated 256 64] c⟩

section Load

variable [Source σ] [ToString π] {openFile : π → Except IoError σ} {path : π} {m : Memory L}

theorem load_run_of_ok (h : Selects record admits) {n : Nat}
    (hload : (m.loadFile openFile path).outcome = .ok n) (c : Console) :
    ∃ c', (load record openFile m path).run c = .ok (m.loadFile openFile path).memory c' ∧
      Grows admits c c' (m.loadFile openFile path).log [] := by
  refine ⟨_, ?_, Console.grows_report h (m.loadFile openFile path).log c⟩
  unfold load
  rw [bind_run_of_ok (report_run ..), hload]
  rfl

theorem load_run_of_error (h : Selects record admits) {fault : Fault}
    (hload : (m.loadFile openFile path).outcome = .error fault) (c : Console) :
    ∃ c', (load record openFile m path).run c =
        .error (.ofFault ("can't load code from " ++ toString path) fault) c' ∧
      Grows admits c c' (m.loadFile openFile path).log [] := by
  refine ⟨_, ?_, Console.grows_report h (m.loadFile openFile path).log c⟩
  unfold load
  rw [bind_run_of_ok (report_run ..), hload]
  rfl

end Load

/-- The listing prints what can be fetched, and stops where nothing can. -/
theorem printAll_run (admits : Event → Bool) (m : Memory L) (ps : List Nat) (c : Console) :
    ∃ c', (printAll m ps).run c =
        ((m.walk ps).2.elim (.ok () c') fun why => .error (.error why.chain) c') ∧
      Grows admits c c' [] ((m.walk ps).1.map Listing.line) := by
  induction ps generalizing c with
  | nil => exact ⟨c, rfl, .refl c⟩
  | cons pos ps ih =>
    cases hfetch : m.fetch (Int64.ofNat pos) with
    | error why =>
      rw [m.walk_cons_error hfetch]
      refine ⟨c, ?_, .refl c⟩
      rw [printAll, hfetch]
      rfl
    | ok i =>
      rw [m.walk_cons_ok hfetch]
      obtain ⟨c', hrest, hgrows⟩ := ih (c.print (Listing.line (pos, i)))
      refine ⟨c', ?_, (Console.grows_print c _).trans hgrows⟩
      rw [printAll, hfetch]
      exact hrest

/-! ### The program -/

section List

variable [Source σ] [ToString π] {openFile : π → Except IoError σ} {path : π}

/-- The program after a load that succeeds, if all of the listing can be fetched. -/
theorem list_run_of_ok (h : Selects record admits) {n : Nat} {lines : List String}
    (hload : ((Memory.zeroed .standard).loadFile openFile path).outcome = .ok n)
    (hlisting : ((Memory.zeroed .standard).loadFile openFile path).memory.listing = (lines, none))
    (c : Console) :
    ∃ c', (list record openFile path).run c = .ok () c' ∧
      Grows admits c c'
        (.allocated 256 64 :: ((Memory.zeroed .standard).loadFile openFile path).log ++
          [.released 256]) lines := by
  obtain ⟨c₁, hallocate, hgrows₁⟩ := allocate_run h c
  obtain ⟨c₂, hloaded, hgrows₂⟩ := load_run_of_ok h hload c₁
  obtain ⟨c₃, hprinted, hgrows₃⟩ := printAll_run admits
    ((Memory.zeroed .standard).loadFile openFile path).memory
    ((Memory.zeroed .standard).loadFile openFile path).memory.positions c₂
  obtain ⟨hlines, hwhole⟩ := Prod.mk.inj hlisting
  rw [hwhole] at hprinted
  rw [hlines] at hgrows₃
  have hgrows₄ := Console.grows_report h [.released 256] c₃
  have hall := ((hgrows₁.trans hgrows₂).trans hgrows₃).trans hgrows₄
  simp only [List.nil_append, List.append_nil] at hall
  refine ⟨_, ?_, hall⟩
  unfold list
  rw [bind_run_of_ok hallocate, bind_run_of_ok hloaded, bind_run_of_ok hprinted]
  rfl

/-- The program after a load that fails. -/
theorem list_run_of_error (h : Selects record admits) {fault : Fault}
    (hload : ((Memory.zeroed .standard).loadFile openFile path).outcome = .error fault)
    (c : Console) :
    ∃ c', (list record openFile path).run c =
        .error (.ofFault ("can't load code from " ++ toString path) fault) c' ∧
      Grows admits c c'
        (.allocated 256 64 :: ((Memory.zeroed .standard).loadFile openFile path).log) [] := by
  obtain ⟨c₁, hallocate, hgrows₁⟩ := allocate_run h c
  obtain ⟨c₂, hstopped, hgrows₂⟩ := load_run_of_error h hload c₁
  refine ⟨c₂, ?_, hgrows₁.trans hgrows₂⟩
  unfold list
  rw [bind_run_of_ok hallocate, bind_run_of_error hstopped]

end List

/-- The filter that is in force is settled before anything else is written. -/
theorem start_run (logging : Logging ω φ) (environment : Option ω) (level : String) :
    ∃ f complaints, logging.InForce environment level f complaints ∧
      (logging.start environment level).run .blank =
        .ok f ⟨[], complaints.map .complaint⟩ := by
  unfold Logging.start
  cases hread : environment.bind logging.parse? with
  | some f =>
    obtain ⟨text, htext, hf⟩ := Option.bind_eq_some_iff.mp hread
    exact ⟨f, [], .environment htext hf, rfl⟩
  | none =>
    refine ⟨_, _, .level fun text htext => ?_, rfl⟩
    rw [htext] at hread
    exact hread

section Main

variable [Source σ] [ToString π] {parse : α → Except Exit (Args π)} {logging : Logging ω φ}
  {admits : φ → Event → Bool} {openFile : π → Except IoError σ} {words : α} {path : π}
  {level : String}

theorem main_of_ok (h : logging.Selects admits) (environment : Option ω)
    (hwords : parse words = .ok ⟨path, level⟩) {n : Nat} {lines : List String}
    (hload : ((Memory.zeroed .standard).loadFile openFile path).outcome = .ok n)
    (hlisting : ((Memory.zeroed .standard).loadFile openFile path).memory.listing =
      (lines, none)) :
    ∃ f complaints c, logging.InForce environment level f complaints ∧
      main parse logging openFile environment words = ⟨0, c⟩ ∧
      Grows (admits f) ⟨[], complaints.map .complaint⟩ c
        (.allocated 256 64 :: ((Memory.zeroed .standard).loadFile openFile path).log ++
          [.released 256]) lines := by
  obtain ⟨f, complaints, hforce, hstart⟩ := start_run logging environment level
  obtain ⟨c, hlist, hgrows⟩ :=
    list_run_of_ok (h f) hload hlisting ⟨[], complaints.map .complaint⟩
  refine ⟨f, complaints, c, hforce, ?_, hgrows⟩
  simp only [main, hwords, exit]
  rw [bind_run_of_ok hstart, hlist]

theorem main_of_error (h : logging.Selects admits) (environment : Option ω)
    (hwords : parse words = .ok ⟨path, level⟩) {fault : Fault}
    (hload : ((Memory.zeroed .standard).loadFile openFile path).outcome = .error fault) :
    ∃ f complaints c, logging.InForce environment level f complaints ∧
      main parse logging openFile environment words =
        (Stop.ofFault ("can't load code from " ++ toString path) fault).exit c ∧
      Grows (admits f) ⟨[], complaints.map .complaint⟩ c
        (.allocated 256 64 :: ((Memory.zeroed .standard).loadFile openFile path).log) [] := by
  obtain ⟨f, complaints, hforce, hstart⟩ := start_run logging environment level
  obtain ⟨c, hlist, hgrows⟩ := list_run_of_error (h f) hload ⟨[], complaints.map .complaint⟩
  refine ⟨f, complaints, c, hforce, ?_, hgrows⟩
  simp only [main, hwords, exit]
  rw [bind_run_of_ok hstart, hlist]

end Main

end Process

end FlatMemory
