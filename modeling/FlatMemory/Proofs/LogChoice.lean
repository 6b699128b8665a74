import FlatMemory.Proofs.Exit

/-!
# The log chooses, and nothing else

Two runs on one file, under whatever filters, have the same exit but for the log, and the log of
each of them is its filter's choice among the same events.  Of the log it is assumed only that it
selects.

## Main definitions

* `Process.sequence` — all events of a run, by what stands under the path.
* `Exit.Logs` — the exit shows a log, and after it what the program itself says.
* `Exit.Ends` — the end of a run, by the end of its load.

## Main results

* `Process.sequence_eq` — the events of a run are those of its load, between the events of its
  memory.
* `Process.logs_of_grows` — what the console shows can be told apart by who has written it.
* `Process.exists_inForce` — one run, whatever the filter.
* `run_of_logging` — **two runs differ in the choice of the log only.**
-/

namespace FlatMemory

universe u

variable {σ : Type u} {α π ω φ : Type} [Source σ] [ToString π]

/-! ### The events of a run -/

namespace Process

/-- The events of a run after the file was opened, by the answer of the load. -/
def sequel : Except Fault Nat → List Event
  | .ok n => [.loaded n 64, .released 256]
  | .error (.failure (.tooLarge capacity)) => [.truncated capacity]
  | .error _ => []

/-- All events of a run, in order, by what stands under the path. -/
def sequence (path : String) : Except IoError σ → List Event
  | .error _ => [.allocated 256 64]
  | .ok source =>
    .allocated 256 64 :: .reading path ::
      sequel ((Memory.zeroed .standard).loadCode source).outcome

theorem sequence_eq (openFile : π → Except IoError σ) (path : π) :
    sequence (toString path) (openFile path) =
      .allocated 256 64 :: ((Memory.zeroed .standard).loadFile openFile path).log ++
        match ((Memory.zeroed .standard).loadFile openFile path).outcome with
        | .ok _ => [.released 256]
        | .error _ => [] := by
  unfold Memory.loadFile
  cases openFile path with
  | error cause => rfl
  | ok source =>
    obtain ⟨before, filled, last, ending, hcourse⟩ :=
      exists_course Layout.standard.capacity .start source
    simp only [sequence, hcourse.loadCode_eq]
    cases ending with
    | complete code => rfl
    | truncated code => rfl
    | broken cause => rfl
    | overrun index => rfl

theorem released_not_mem_loadFile (openFile : π → Except IoError σ) (path : π) (size : Nat) :
    .released size ∉ ((Memory.zeroed .standard).loadFile openFile path).log := by
  unfold Memory.loadFile
  cases openFile path with
  | error cause => exact List.not_mem_nil
  | ok source =>
    obtain ⟨before, filled, last, ending, hcourse⟩ :=
      exists_course Layout.standard.capacity .start source
    simp only [hcourse.loadCode_eq]
    cases ending <;> simp [Memory.conclude]

end Process

/-! ### What an exit shows -/

/-- The exit shows what is said about the filter, the events in order, and after them what the
program itself says; there is nothing else on the standard error. -/
def Exit.Logs (e : Exit) (complaints : List String) (events : List Event) : Prop :=
  ∃ notes, e.console.stderr = complaints.map .complaint ++ notes ++ e.verdicts ∧
    notes.map Note.event? = events.map some

/-- The end of a run on a path, by the end of its load.  The memory is given back only if the load
succeeds. -/
inductive Exit.Ends (e : Exit) (path : String) (load : Conclusion .standard)
    (events : List Event) : Prop
  | listed {n : Nat} : load.outcome = .ok n → e.status = 0 →
      e.stdout = load.memory.listing.1 → e.verdicts = [] → .released 256 ∈ events →
      Ends e path load events
  | failed {why : Failure} : load.outcome = .error (.failure why) → e.status = 1 →
      e.stdout = [] →
      e.verdicts = [.error ("error: " ++ ("can't load code from " ++ path ++ ": " ++ why.chain))] →
      (∀ size, .released size ∉ events) → Ends e path load events
  | panicked {index : Nat} : load.outcome = .error (.overrun index) → e.status = 101 →
      e.stdout = [] → e.verdicts = [.panic (Fault.overrun index).message] →
      (∀ size, .released size ∉ events) → Ends e path load events

/-- The end of the load settles all that does not belong to the log. -/
theorem Exit.Ends.congr {e e' : Exit} {path : String} {load : Conclusion .standard}
    {events events' : List Event} (h : e.Ends path load events)
    (h' : e'.Ends path load events') :
    e.status = e'.status ∧ e.stdout = e'.stdout ∧ e.verdicts = e'.verdicts := by
  cases h with
  | listed hload hstatus hstdout hverdicts =>
    cases h' with
    | listed _ hstatus' hstdout' hverdicts' =>
      exact ⟨hstatus.trans hstatus'.symm, hstdout.trans hstdout'.symm,
        hverdicts.trans hverdicts'.symm⟩
    | failed hload' | panicked hload' => rw [hload] at hload'; cases hload'
  | failed hload hstatus hstdout hverdicts =>
    cases h' with
    | failed hload' hstatus' hstdout' hverdicts' =>
      -- both name the failure of the one load
      rw [hload] at hload'
      cases hload'
      exact ⟨hstatus.trans hstatus'.symm, hstdout.trans hstdout'.symm,
        hverdicts.trans hverdicts'.symm⟩
    | listed hload' | panicked hload' => rw [hload] at hload'; cases hload'
  | panicked hload hstatus hstdout hverdicts =>
    cases h' with
    | panicked hload' hstatus' hstdout' hverdicts' =>
      rw [hload] at hload'
      cases hload'
      exact ⟨hstatus.trans hstatus'.symm, hstdout.trans hstdout'.symm,
        hverdicts.trans hverdicts'.symm⟩
    | listed hload' | failed hload' => rw [hload] at hload'; cases hload'

theorem Note.filter_isVerdict_eq_nil {notes : List Note} {events : List Event}
    (h : notes.map Note.event? = events.map some) : notes.filter Note.isVerdict = [] := by
  rw [List.filter_eq_nil_iff]
  intro n hn
  have hmem : n.event? ∈ events.map some := h ▸ List.mem_map_of_mem hn
  obtain ⟨e, -, he⟩ := List.mem_map.mp hmem
  cases n with
  | event e line => exact Bool.false_ne_true
  | complaint text | error text | panic message => cases he

theorem Exit.Logs.filterMap_event? {e : Exit} {complaints : List String} {events : List Event}
    (h : e.Logs complaints events) : e.console.stderr.filterMap Note.event? = events := by
  obtain ⟨notes, hstderr, hevents⟩ := h
  have hcomplaints : (complaints.map Note.complaint).filterMap Note.event? = [] := by
    simp [List.filterMap_map, Function.comp_def, Note.event?]
  have hverdicts : e.verdicts.filterMap Note.event? = [] := by
    rw [List.filterMap_eq_nil_iff]
    intro n hn
    have hown := (List.mem_filter.mp hn).2
    cases n with
    | event e line => cases hown
    | complaint text | error text | panic message => rfl
  have hnotes : notes.filterMap Note.event? = events := by
    have hid : notes.filterMap Note.event? = (notes.map Note.event?).filterMap id := by
      rw [List.filterMap_map, Function.id_comp]
    rw [hid, hevents, List.filterMap_map]
    exact List.filterMap_some
  rw [hstderr, List.filterMap_append, List.filterMap_append, hcomplaints, hverdicts, hnotes,
    List.nil_append, List.append_nil]

namespace Process

theorem logs_of_grows {admits : Event → Bool} {complaints : List String} {c : Console}
    {events : List Event} {lines : List String}
    (h : Console.Grows admits ⟨[], complaints.map .complaint⟩ c events lines) (status : Nat)
    (verdicts : List Note) (hverdicts : verdicts.all Note.isVerdict = true) :
    let e : Exit := ⟨status, c.note verdicts⟩
    e.Logs complaints (events.filter admits) ∧ e.stdout = lines ∧ e.verdicts = verdicts := by
  intro e
  obtain ⟨notes, hnotes, hevents⟩ := h.stderr
  have hall : e.console.stderr = complaints.map .complaint ++ notes ++ verdicts :=
    congrArg (· ++ verdicts) hnotes
  have hcomplaints : (complaints.map Note.complaint).filter Note.isVerdict = [] := by
    rw [List.filter_map, List.map_eq_nil_iff, List.filter_eq_nil_iff]
    exact fun _ _ => Bool.false_ne_true
  have hown : e.verdicts = verdicts := by
    unfold Exit.verdicts
    rw [hall, List.filter_append, List.filter_append, hcomplaints,
      Note.filter_isVerdict_eq_nil hevents, List.nil_append, List.nil_append,
      List.filter_eq_self.mpr (List.all_eq_true.mp hverdicts)]
  exact ⟨⟨notes, by rw [hown, hall], hevents⟩, h.stdout, hown⟩

/-! ### One run and two -/

section Main

variable {parse : α → Except Exit (Args π)} {logging : Logging ω φ} {admits : φ → Event → Bool}
  {openFile : π → Except IoError σ} {words : α} {path : π} {level : String}

/-- Whatever the filter, a run shows its choice among the events of the path, and ends as the load
does. -/
theorem exists_inForce (h : logging.Selects admits) (openFile : π → Except IoError σ)
    (environment : Option ω) (hwords : parse words = .ok ⟨path, level⟩) :
    let e := main parse logging openFile environment words
    let events := sequence (toString path) (openFile path)
    (∃ f complaints, logging.InForce environment level f complaints ∧
        e.Logs complaints (events.filter (admits f))) ∧
      e.Ends (toString path) ((Memory.zeroed .standard).loadFile openFile path) events := by
  intro e events
  have hevents : events = _ := sequence_eq openFile path
  have hsilent := released_not_mem_loadFile openFile path
  cases hload : ((Memory.zeroed .standard).loadFile openFile path).outcome with
  | ok n =>
    rw [hload] at hevents
    have hlen := (Memory.zeroed .standard).codeLen_loadFile_le openFile path (Nat.zero_le _)
    have hlisting : ((Memory.zeroed .standard).loadFile openFile path).memory.listing =
        (((Memory.zeroed .standard).loadFile openFile path).memory.listing.1, none) := by
      rw [Memory.listing_eq _ hlen]
    obtain ⟨f, complaints, c, hforce, hexit, hgrows⟩ :=
      main_of_ok h environment hwords hload hlisting
    obtain ⟨hlogs, hstdout, hverdicts⟩ := logs_of_grows hgrows 0 [] rfl
    rw [c.note_nil] at hlogs hstdout hverdicts
    rw [show e = _ from hexit, hevents]
    exact ⟨⟨f, complaints, hforce, hlogs⟩, .listed hload rfl hstdout hverdicts (by simp)⟩
  | error fault =>
    rw [hload, List.append_nil] at hevents
    obtain ⟨f, complaints, c, hforce, hexit, hgrows⟩ := main_of_error h environment hwords hload
    rw [show e = _ from hexit, hevents]
    cases fault with
    | failure why =>
      obtain ⟨hlogs, hstdout, hverdicts⟩ := logs_of_grows hgrows 1 [.error _] rfl
      exact ⟨⟨f, complaints, hforce, hlogs⟩, .failed hload rfl hstdout hverdicts (by simpa)⟩
    | overrun index =>
      obtain ⟨hlogs, hstdout, hverdicts⟩ := logs_of_grows hgrows 101 [.panic _] rfl
      exact ⟨⟨f, complaints, hforce, hlogs⟩, .panicked hload rfl hstdout hverdicts (by simpa)⟩

/-- A file that is honest, if it can be opened, makes no run panic. -/
theorem status_ne_of_honest {e : Exit} {events : List Event}
    (honest : ∀ source, openFile path = .ok source → Source.Honest source)
    (h : e.Ends (toString path) ((Memory.zeroed .standard).loadFile openFile path) events) :
    e.status ≠ 101 := by
  obtain ⟨content, -, hloaded⟩ := Content.exists_found honest (Memory.zeroed .standard)
  cases h with
  | listed _ hstatus => simp [hstatus]
  | failed _ hstatus => simp [hstatus]
  | panicked hload =>
    -- no content of an honest file leads to a panic
    cases content with
    | program code => rw [hloaded.1] at hload; cases hload
    | excess => rw [hloaded] at hload; cases hload
    | failure cause => rw [hloaded] at hload; cases hload

end Main

end Process

/-- **Two runs differ in the choice of the log only.**  Let two command lines name the same path,
and let the logs of the two runs select, each in its own way and with lines of its own.  Then the
runs have the same status and the same standard output, and the program itself says the same on
the standard error.  Before that, each run shows what its filter admits of the events of the path,
and nothing else but what there is to say about the filter.  The filter of the environment is in
force if it can be read, and that of the log level if not.  A run ends well, with an error or with
a panic as its load does, and it does not panic if the file is honest. -/
theorem run_of_logging {parse : α → Except Exit (Process.Args π)} {logging logging' : Logging ω φ}
    {admits admits' : φ → Event → Bool} (selects : logging.Selects admits)
    (selects' : logging'.Selects admits') (openFile : π → Except IoError σ)
    (environment environment' : Option ω) {words words' : α} {path : π} {level level' : String}
    (hwords : parse words = .ok ⟨path, level⟩) (hwords' : parse words' = .ok ⟨path, level'⟩) :
    let e := Process.main parse logging openFile environment words
    let e' := Process.main parse logging' openFile environment' words'
    let events := Process.sequence (toString path) (openFile path)
    (e.status = e'.status ∧ e.stdout = e'.stdout ∧ e.verdicts = e'.verdicts) ∧
      (∃ f complaints, logging.InForce environment level f complaints ∧
        e.Logs complaints (events.filter (admits f))) ∧
      (∃ f complaints, logging'.InForce environment' level' f complaints ∧
        e'.Logs complaints (events.filter (admits' f))) ∧
      e.Ends (toString path) ((Memory.zeroed .standard).loadFile openFile path) events ∧
      ((∀ source, openFile path = .ok source → Source.Honest source) → e.status ≠ 101) := by
  intro e e' events
  obtain ⟨hlogs, hends⟩ := Process.exists_inForce selects openFile environment hwords
  obtain ⟨hlogs', hends'⟩ := Process.exists_inForce selects' openFile environment' hwords'
  exact ⟨hends.congr hends', hlogs, hlogs', hends,
    fun honest => Process.status_ne_of_honest honest hends⟩

/-- A file with too many bytes.  At the level of details a run tells three events; with a filter of
the environment that is off it tells none, and with one for warnings the last, whatever the level
says. -/
theorem run_of_logging_of_excess :
    let openFile : String → Except IoError (List Reading) := fun _ =>
      .ok (List.replicate 4 (.exactly (List.replicate 64 7)))
    let words := ["--log-level", "debug", "a"]
    let e := CommandLine.run openFile none words
    let off := CommandLine.run openFile (some "off") words
    let warn := CommandLine.run openFile (some "warn") ["--log-level=off", "a"]
    (CommandLine.logging.Selects Filter.allows ∧
        CommandLine.parse words = .ok ⟨"a", "debug"⟩ ∧
        CommandLine.parse ["--log-level=off", "a"] = .ok ⟨"a", "off"⟩) ∧
      (e.status = 1 ∧ off.status = 1 ∧ warn.status = 1) ∧
      (e.verdicts = off.verdicts ∧ e.verdicts = warn.verdicts) ∧
      e.console.stderr.filterMap Note.event? =
        [.allocated 256 64, .reading "a", .truncated 192] ∧
      off.console.stderr.filterMap Note.event? = [] ∧
      warn.console.stderr.filterMap Note.event? = [.truncated 192] := by
  intro openFile words e off warn
  have hwords : CommandLine.parse words = .ok ⟨"a", "debug"⟩ := rfl
  have hwords' : CommandLine.parse ["--log-level=off", "a"] = .ok ⟨"a", "off"⟩ := rfl
  have selects := CommandLine.selects_logging
  -- the file is honest, and holds more than fits
  have honest : Source.Honest (List.replicate 4 (Reading.exactly (List.replicate 64 7))) :=
    (Source.follows_self _).honest (by decide)
  obtain ⟨c, hfound, hloaded⟩ := Content.exists_found_source honest (Memory.zeroed .standard)
  have hexcess : Content.Found 192 (openFile "a") .excess :=
    .excess ⟨4, by decide +kernel⟩
  obtain rfl := hexcess.unique hfound
  have hload : ((Memory.zeroed .standard).loadFile openFile "a").outcome =
      .error (.failure (.tooLarge 192)) := hloaded
  have hsequence : Process.sequence (toString "a") (openFile "a") =
      [.allocated 256 64, .reading "a", .truncated 192] := by
    show [.allocated 256 64, .reading "a"] ++ Process.sequel
      ((Memory.zeroed .standard).loadFile openFile "a").outcome = _
    rw [hload]
    rfl
  obtain ⟨⟨hstatus, -, hverdicts⟩, ⟨f, complaints, hforce, hlogs⟩, ⟨f', complaints', hforce',
    hlogs'⟩, hends, -⟩ := run_of_logging selects selects openFile none (some "off") hwords hwords
  obtain ⟨⟨hstatus', -, hverdicts'⟩, -, ⟨f'', complaints'', hforce'', hlogs''⟩, -, -⟩ :=
    run_of_logging selects selects openFile none (some "warn") hwords hwords'
  have hone : e.status = 1 := by
    cases hends with
    | failed _ h => exact h
    | listed h => rw [hload] at h; cases h
    | panicked h => rw [hload] at h; cases h
  have hevents := hlogs.filterMap_event?
  have hevents' := hlogs'.filterMap_event?
  have hevents'' := hlogs''.filterMap_event?
  rw [hsequence] at hevents hevents' hevents''
  refine ⟨⟨selects, hwords, hwords'⟩, ⟨hone, hstatus ▸ hone, hstatus' ▸ hone⟩,
    ⟨hverdicts, hverdicts'⟩, hevents.trans ?_, hevents'.trans ?_, hevents''.trans ?_⟩
  · cases hforce with
    | environment henv => cases henv
    | level => decide
  · cases hforce' with
    | environment henv hread => cases henv; cases hread; rfl
    | level hnone => cases hnone "off" rfl
  · cases hforce'' with
    | environment henv hread => cases henv; cases hread; rfl
    | level hnone => cases hnone "warn" rfl

end FlatMemory
