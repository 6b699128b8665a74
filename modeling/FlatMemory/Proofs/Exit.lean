import FlatMemory.CommandLine
import FlatMemory.Proofs.Listing
import FlatMemory.Proofs.Process

/-!
# What the command line makes of a file

The words of a command line that name a path lead to one of three exits, and what stands
under the path decides which: the whole listing, a complaint about the size, or a complaint
about the input.  There is no fourth: the listing never reaches the end of the memory.

## Main definitions

* `Content` — what stands under a path, as far as it matters to a load.
* `Content.Found capacity opened` — opening the path leads to that content.
* `Content.Loaded` — how a load of that content ends.
* `Exit.Fails` — an exit that lists nothing and names an error.
* `Content.Shown` — the exit that belongs to a content.

## Main results

* `Content.Found.unique`, `Content.exists_found` — a path has exactly one content, and its
  load ends accordingly.
* `Memory.codeLen_loadFile_le` — no load leaves a code length beyond the code region.
* `run_list` — **the exit is the one that belongs to the content.**
-/

namespace FlatMemory

universe u

variable {σ : Type u} [Source σ] {α π ω φ : Type} [ToString π] {L : Layout}

open Reading (delivered final)

/-! ### The code length -/

theorem Course.codeLen_conclude_le {source : σ} {before : List Reading} {filled : Staging}
    {last : Reading} {ending : Ending}
    (h : Course L.capacity .start source before filled last ending) (m : Memory L)
    (hm : m.codeLen ≤ L.capacity) : (m.conclude ending).memory.codeLen ≤ L.capacity := by
  cases ending with
  | complete code => exact h.size_of_complete
  | truncated code => exact Nat.le_of_eq h.size_of_truncated
  | broken cause => exact hm
  | overrun index => exact hm

theorem Memory.codeLen_loadFile_le (openFile : π → Except IoError σ) (m : Memory L)
    (path : π) (hm : m.codeLen ≤ L.capacity) :
    (m.loadFile openFile path).memory.codeLen ≤ L.capacity := by
  unfold Memory.loadFile
  cases openFile path with
  | error cause => exact hm
  | ok source =>
    obtain ⟨before, filled, last, ending, hcourse⟩ := exists_course L.capacity .start source
    show (m.loadCode source).memory.codeLen ≤ L.capacity
    rw [hcourse.loadCode_eq]
    exact hcourse.codeLen_conclude_le m hm

/-! ### Contents -/

/-- What stands under a path, as far as it matters to a load. -/
inductive Content
  | program (code : List UInt8)
  | excess
  /-- A file that cannot be opened, or not be read to its end. -/
  | failure (cause : IoError)

namespace Content

/-- Opening a path leads to the content, if `capacity` bytes fit. -/
inductive Found (capacity : Nat) : Except IoError σ → Content → Prop
  | closed (cause : IoError) : Found capacity (.error cause) (.failure cause)
  /-- The file delivers a program that fits, and then has nothing more. -/
  | program {source : σ} {code w : List UInt8} : Source.Delivers source code (.got 0 w) →
      code.length ≤ capacity → Found capacity (.ok source) (.program code)
  /-- The file delivers more bytes than fit. -/
  | excess {source : σ} : Source.Exceeds source capacity → Found capacity (.ok source) .excess
  /-- The file fails while what it has delivered fits. -/
  | broken {source : σ} {code : List UInt8} {cause : IoError} :
      Source.Delivers source code (.failed cause) → code.length ≤ capacity →
      Found capacity (.ok source) (.failure cause)

theorem not_exceeds {source : σ} {capacity : Nat} {code : List UInt8} {last : Reading}
    (h : Source.Delivers source code last) (fits : code.length ≤ capacity) :
    ¬Source.Exceeds source capacity := by
  rintro ⟨n, hn⟩
  have hle := h.length_le n
  omega

/-- A path has one content at most. -/
theorem Found.unique {capacity : Nat} {opened : Except IoError σ} {c c' : Content}
    (h : Found capacity opened c) (h' : Found capacity opened c') : c' = c := by
  cases h with
  | closed cause => cases h'; rfl
  | program hcode fits =>
    cases h' with
    | program hcode' _ => rw [(hcode'.unique hcode).1]
    | excess hexceeds => exact absurd hexceeds (not_exceeds hcode fits)
    | broken hcode' _ => cases (hcode'.unique hcode).2
  | excess hexceeds =>
    cases h' with
    | program hcode' fits => exact absurd hexceeds (not_exceeds hcode' fits)
    | excess _ => rfl
    | broken hcode' fits => exact absurd hexceeds (not_exceeds hcode' fits)
  | broken hcode fits =>
    cases h' with
    | program hcode' _ => cases (hcode'.unique hcode).2
    | excess hexceeds => exact absurd hexceeds (not_exceeds hcode fits)
    | broken hcode' _ => cases (hcode'.unique hcode).2; rfl

/-- How a load of the content into a memory ends. -/
def Loaded (m : Memory L) (c : Conclusion L) : Content → Prop
  | .program code => c.outcome = .ok code.length ∧ c.memory = m.commit code.toArray
  | .excess => c.outcome = .error (.failure (.tooLarge L.capacity))
  | .failure cause => c.outcome = .error (.failure (.unavailable cause))

/-- An honest source has a content, and its load ends accordingly. -/
theorem exists_found_source {source : σ} (honest : Source.Honest source) (m : Memory L) :
    ∃ c, Found L.capacity (.ok source) c ∧ Loaded m (m.loadCode source).toConclusion c := by
  obtain ⟨before, filled, last, ending, hcourse⟩ := exists_course L.capacity .start source
  have hending := hcourse.ending_eq honest []
  rw [hcourse.final_eq] at hending
  rw [hcourse.loadCode_eq, hending]
  by_cases fits : (delivered (before ++ [last])).length ≤ L.capacity
  · -- the last reading is final, and it decides
    have hlast := (hcourse.isFinal_iff honest).mpr fits
    have hdelivers : Source.Delivers source (delivered (before ++ [last])) last := by
      refine ⟨before.length + 1, ⟨last, ?_, hlast⟩, ?_, ?_⟩
      · rw [hcourse.readings]; simp
      · rw [hcourse.readings]
      · rw [hcourse.readings, hcourse.final_eq, Reading.final_cons_final hlast]
    rw [Reading.final_cons_final hlast]
    unfold Ending.atOnce
    rw [if_neg (Nat.not_lt.mpr fits)]
    cases last with
    | got n w =>
      obtain rfl : n = 0 := by simpa [Reading.isFinal] using hlast
      exact ⟨.program _, .program hdelivers fits, rfl, rfl⟩
    | failed cause => exact ⟨.failure cause, .broken hdelivers fits, rfl⟩
  · -- the readings of the load have delivered too much already
    have hexceeds : Source.Exceeds source L.capacity := by
      refine ⟨before.length + 1, ?_⟩
      rw [hcourse.readings]
      exact Nat.not_le.mp fits
    unfold Ending.atOnce
    rw [if_pos (Nat.not_le.mp fits)]
    exact ⟨.excess, .excess hexceeds, rfl⟩

/-- A path has a content, and the load of the file ends accordingly. -/
theorem exists_found {openFile : π → Except IoError σ} {path : π}
    (honest : ∀ source, openFile path = .ok source → Source.Honest source) (m : Memory L) :
    ∃ c, Found L.capacity (openFile path) c ∧ Loaded m (m.loadFile openFile path) c := by
  unfold Memory.loadFile
  cases hopen : openFile path with
  | error cause => exact ⟨.failure cause, .closed cause, rfl⟩
  | ok source =>
    obtain ⟨c, hfound, hloaded⟩ := exists_found_source (honest source hopen) m
    refine ⟨c, hfound, ?_⟩
    cases c with
    | program code => exact hloaded
    | excess => exact hloaded
    | failure cause => exact hloaded

end Content

/-! ### Exits -/

/-- The exit lists nothing, and its last complaint is the message about the code of the
path. -/
def Exit.Fails (e : Exit) (path message : String) : Prop :=
  e.status = 1 ∧ e.stdout = [] ∧
    e.stderr.getLast? = some ("error: can't load code from " ++ path ++ ": " ++ message)

/-- The exit that belongs to a content of the standard layout.  A program that fits is
listed; an excess is named with the size of the code region; and of a failure the text is
named twice, once as a part of the message and once as its cause. -/
def Content.Shown (path : String) (e : Exit) : Content → Prop
  | .program code => e.status = 0 ∧
      e.stdout = (List.range ((code.length + 2) / 3)).map (Listing.row code)
  | .excess => e.Fails path "code does not fit in the 192 bytes of the code region"
  | .failure cause =>
    e.Fails path ("code source unavailable: " ++ cause.text ++ ": " ++ cause.text)

theorem CommandLine.selects_logging : logging.Selects Filter.allows := by
  intro f
  constructor
  · intro e c he
    exact ⟨e.targetLine, if_pos he⟩
  · intro e c he
    exact if_neg (by simp [he])

namespace Process

variable {parse : α → Except Exit (Args π)} {logging : Logging ω φ} {admits : φ → Event → Bool}
  {openFile : π → Except IoError σ} {words : α} {path : π} {level : String}

theorem fails_of_failure (h : logging.Selects admits) (environment : Option ω)
    (hwords : parse words = .ok ⟨path, level⟩) {why : Failure}
    (hload : ((Memory.zeroed .standard).loadFile openFile path).outcome = .error (.failure why)) :
    (main parse logging openFile environment words).Fails (toString path) why.chain := by
  have hbegin : "error: can't load code from " = "error: " ++ "can't load code from " := by
    decide
  obtain ⟨f, complaints, c, -, hexit, hgrows⟩ := main_of_error h environment hwords hload
  rw [hexit]
  refine ⟨rfl, hgrows.stdout, ?_⟩
  -- the error is the last note, whatever the log has shown before it
  show ((c.stderr ++ [_]).map Note.text).getLast? = _
  rw [List.map_append, List.map_singleton, List.getLast?_concat, hbegin]
  simp only [Note.text, String.append_assoc]

theorem exit_of_ok (h : logging.Selects admits) (environment : Option ω)
    (hwords : parse words = .ok ⟨path, level⟩) {n : Nat} {lines : List String}
    (hload : ((Memory.zeroed .standard).loadFile openFile path).outcome = .ok n)
    (hlisting : ((Memory.zeroed .standard).loadFile openFile path).memory.listing =
      (lines, none)) :
    (main parse logging openFile environment words).status = 0 ∧
      (main parse logging openFile environment words).stdout = lines := by
  obtain ⟨f, complaints, c, -, hexit, hgrows⟩ := main_of_ok h environment hwords hload hlisting
  rw [hexit]
  exact ⟨rfl, hgrows.stdout⟩

/-- The exit of a load that ends as the content says belongs to the content. -/
theorem shown_of_loaded (h : logging.Selects admits) (environment : Option ω)
    (hwords : parse words = .ok ⟨path, level⟩) {c : Content}
    (hfits : ∀ code, c = .program code → code.length ≤ Layout.standard.capacity)
    (hload : c.Loaded (.zeroed .standard)
      ((Memory.zeroed .standard).loadFile openFile path)) :
    c.Shown (toString path) (main parse logging openFile environment words) := by
  cases c with
  | program code =>
    obtain ⟨houtcome, hmemory⟩ := hload
    have hlisting := Memory.listing_commit (hfits code rfl)
    rw [← hmemory] at hlisting
    exact exit_of_ok h environment hwords houtcome hlisting
  | excess => exact fails_of_failure h environment hwords hload
  | failure cause => exact fails_of_failure h environment hwords hload

end Process

/-- **The exit is the one that belongs to the content.**  Let the words of a command line
name a path, in whatever way they are read, and let the file under it be honest, if it can be
opened.  Let the log select, whatever its filters are.  Then the path has exactly one content, the
exit of the program is the one that belongs to it, and the program that was loaded, if any, could
be fetched up to its last instruction. -/
theorem run_list {parse : α → Except Exit (Process.Args π)} {logging : Logging ω φ}
    {admits : φ → Event → Bool} (selects : logging.Selects admits)
    (openFile : π → Except IoError σ) (environment : Option ω) {words : α} {path : π}
    {level : String} (hwords : parse words = .ok ⟨path, level⟩)
    (honest : ∀ source, openFile path = .ok source → Source.Honest source) :
    (∃ c : Content, c.Found 192 (openFile path) ∧
      (∀ other : Content, other.Found 192 (openFile path) → other = c) ∧
      c.Shown (toString path) (Process.main parse logging openFile environment words)) ∧
    ((Memory.zeroed .standard).loadFile openFile path).memory.listing.2 = none := by
  have hcapacity : Layout.standard.capacity = 192 := rfl
  constructor
  · obtain ⟨c, hfound, hloaded⟩ := Content.exists_found honest (.zeroed .standard)
    rw [hcapacity] at hfound
    refine ⟨c, hfound, fun other hother => hfound.unique hother, ?_⟩
    refine Process.shown_of_loaded selects environment hwords ?_ hloaded
    rintro code rfl
    generalize openFile path = opened at hfound
    cases hfound with
    | program _ fits => exact fits
  · have hlen := (Memory.zeroed .standard).codeLen_loadFile_le openFile path (Nat.zero_le _)
    rw [Memory.listing_eq _ hlen]

/-- Four bytes in two readings, with an interruption between them: the second instruction
lacks two bytes, and zeros stand in their place. -/
theorem run_list_interrupted :
    let openFile : String → Except IoError (List Reading) := fun _ =>
      .ok [.exactly [1], .failed (.plain .interrupted), .exactly [2, 3, 4]]
    let words := ["--log-level", "debug", "a.bin"]
    (CommandLine.logging.Selects Filter.allows ∧
        CommandLine.parse words = .ok ⟨"a.bin", "debug"⟩ ∧
        ∀ source, openFile "a.bin" = .ok source → Source.Honest source) ∧
      (CommandLine.run openFile none words).status = 0 ∧
      (CommandLine.run openFile none words).stdout = ["0040: 01 02 03", "0043: 04 00 00"] := by
  intro openFile words
  have hwords : CommandLine.parse words = .ok ⟨"a.bin", "debug"⟩ := rfl
  have honest : ∀ source, openFile "a.bin" = .ok source → Source.Honest source := by
    rintro source ⟨⟩
    exact (Source.follows_self _).honest (by decide)
  obtain ⟨⟨c, -, hunique, hshown⟩, -⟩ :=
    run_list CommandLine.selects_logging openFile none hwords honest
  have hprogram : Content.Found 192 (openFile "a.bin") (.program [1, 2, 3, 4]) :=
    .program ⟨4, by decide, rfl, rfl⟩ (by decide)
  obtain rfl := hunique _ hprogram
  obtain ⟨hstatus, hstdout⟩ := hshown
  exact ⟨⟨CommandLine.selects_logging, hwords, honest⟩, hstatus, hstdout.trans (by decide)⟩

end FlatMemory
