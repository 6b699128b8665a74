import FlatMemory.Proofs.Exit

/-!
# Reading a listing back

The bytes of a program stand in its listing with two digits each, and at fixed places of the
lines.  So they can be read back, together with the zeros that complete the last instruction;
and two programs have one listing only if they differ in such zeros at most.

## Main definitions

* `Listing.padded` — a program with zeros up to a whole number of instructions.
* `Listing.rows` — the lines of the listing of a program.
* `Listing.bytes?` — reads the bytes of a line.
* `Listing.readBack` — reads the bytes of a listing.

## Main results

* `Listing.bytes?_row` — the bytes of a line are read back.
* `Listing.readBack_rows` — what is read back is the program with its zeros.
* `Listing.rows_eq_iff` — two programs with one listing are equal with their zeros.
* `stdout_eq_iff` — **when two files are listed alike.**
-/

namespace FlatMemory

universe u v

namespace Listing

/-! ### Whole instructions -/

/-- A program with zeros up to the next whole number of instructions. -/
def padded (program : List UInt8) : List UInt8 :=
  program ++ List.replicate ((3 - program.length % 3) % 3) 0

/-- The bytes of the `i`-th instruction of a program. -/
def triple (program : List UInt8) (i : Nat) : List UInt8 :=
  [program.getD (3 * i) 0, program.getD (3 * i + 1) 0, program.getD (3 * i + 2) 0]

/-- The lines of the listing of a program. -/
def rows (program : List UInt8) : List String :=
  (List.range ((program.length + 2) / 3)).map (row program)

variable (program : List UInt8)

theorem length_padded : (padded program).length = 3 * ((program.length + 2) / 3) := by
  rw [padded, List.length_append, List.length_replicate]
  omega

theorem getD_padded (k : Nat) : (padded program).getD k 0 = program.getD k 0 := by
  rw [padded, List.getD_eq_getElem?_getD, List.getD_eq_getElem?_getD]
  rcases Nat.lt_or_ge k program.length with h | h
  · rw [List.getElem?_append_left h]
  · rw [List.getElem?_append_right h, List.getElem?_eq_none h, List.getElem?_replicate]
    split <;> rfl

/-- The listing of a program does not tell whether its last zeros were given or added. -/
theorem rows_padded : rows (padded program) = rows program := by
  have hcount : ((padded program).length + 2) / 3 = (program.length + 2) / 3 := by
    rw [length_padded]
    omega
  have hrow : row (padded program) = row program := by
    funext i
    unfold row
    rw [getD_padded, getD_padded, getD_padded]
  rw [rows, rows, hcount, hrow]

/-- The instructions of a program one after the other, `n` of them, are its first bytes. -/
theorem flatMap_triple (n : Nat) :
    (List.range n).flatMap (triple program) =
      (List.range (3 * n)).map fun k => program.getD k 0 := by
  induction n with
  | zero => rfl
  | succ n ih =>
    rw [List.range_succ, List.flatMap_append, ih, Nat.mul_succ, List.range_succ, List.range_succ,
      List.range_succ]
    simp [triple]

theorem flatMap_triple_eq_padded :
    (List.range ((program.length + 2) / 3)).flatMap (triple program) = padded program := by
  rw [flatMap_triple, ← length_padded]
  apply List.ext_getElem
  · rw [List.length_map, List.length_range]
  · intro k _ hk
    rw [List.getElem_map, List.getElem_range, ← getD_padded, List.getD_eq_getElem?_getD,
      List.getElem?_eq_getElem hk, Option.getD_some]

/-! ### Reading -/

/-- The bytes of a line: three pairs of digits with a blank after each of the first two, behind
the four digits of the address, a colon and a blank. -/
def bytes? (line : String) : Option (List UInt8) :=
  match line.toList.drop 6 with
  | [a, b, ' ', c, d, ' ', e, f] => Hex.bytes? [a, b, c, d, e, f]
  | _ => none

/-- The bytes of all lines; a line that cannot be read has none. -/
def readBack (lines : List String) : List UInt8 :=
  lines.flatMap fun line => (bytes? line).getD []

/-- The bytes of a line are read back. -/
theorem bytes?_row (i : Nat) : bytes? (row program i) = some (triple program i) := by
  have hline : (row program i).toList.drop 6 =
      Hex.byte (program.getD (3 * i) 0) ++ ' ' :: Hex.byte (program.getD (3 * i + 1) 0) ++
        ' ' :: Hex.byte (program.getD (3 * i + 2) 0) := by
    unfold row
    simp [Hex.byte_eq_fixed, Hex.fixed]
  unfold bytes?
  rw [hline]
  exact Hex.bytes?_bytes (triple program i)

/-- **What is read back is the program with its zeros.** -/
theorem readBack_rows : readBack (rows program) = padded program := by
  rw [readBack, rows, List.flatMap_map, ← flatMap_triple_eq_padded]
  simp only [bytes?_row, Option.getD_some]

theorem rows_eq_iff {f g : List UInt8} : rows f = rows g ↔ padded f = padded g := by
  constructor
  · intro h
    rw [← readBack_rows f, h, readBack_rows]
  · intro h
    rw [← rows_padded f, h, rows_padded]

/-- Of two programs that are equal with their zeros, the longer one is the other with a zero or
two at its end. -/
theorem eq_append_of_padded_eq {f g : List UInt8} (h : padded f = padded g)
    (hle : g.length ≤ f.length) :
    f.length - g.length ≤ 2 ∧ f = g ++ List.replicate (f.length - g.length) 0 := by
  have hlength := congrArg List.length h
  rw [length_padded, length_padded] at hlength
  refine ⟨by omega, ?_⟩
  have htake : f = (padded g).take f.length := by
    rw [← h, padded, List.take_left]
  rw [padded, List.take_append, List.take_of_length_le hle, List.take_replicate,
    Nat.min_eq_left (by omega)] at htake
  exact htake

theorem exists_eq_append_of_padded_eq {f g : List UInt8} (h : padded f = padded g) :
    ∃ n ≤ 2, f = g ++ List.replicate n 0 ∨ g = f ++ List.replicate n 0 := by
  rcases Nat.le_total g.length f.length with hle | hle
  · obtain ⟨hn, hf⟩ := eq_append_of_padded_eq h hle
    exact ⟨_, hn, .inl hf⟩
  · obtain ⟨hn, hg⟩ := eq_append_of_padded_eq h.symm hle
    exact ⟨_, hn, .inr hg⟩

theorem padded_eq_iff_of_length_eq {f g : List UInt8} (h : f.length = g.length) :
    padded f = padded g ↔ f = g := by
  constructor
  · intro hpadded
    have hf := (eq_append_of_padded_eq hpadded (Nat.le_of_eq h.symm)).2
    rw [h, Nat.sub_self] at hf
    exact hf.trans (List.append_nil g)
  · intro hfg
    rw [hfg]

end Listing

/-! ### Two files -/

theorem Content.Found.length_le {σ : Type u} [Source σ] {capacity : Nat}
    {opened : Except IoError σ} {code : List UInt8} (h : Found capacity opened (.program code)) :
    code.length ≤ capacity := by
  cases h with
  | program _ fits => exact fits

/-- The standard output for a file with a program that fits is the listing of the program. -/
theorem Process.stdout_main {σ : Type u} [Source σ] {α π ω φ : Type} [ToString π]
    {parse : α → Except Exit (Args π)} {logging : Logging ω φ} {admits : φ → Event → Bool}
    (selects : logging.Selects admits) {openFile : π → Except IoError σ} (environment : Option ω)
    {words : α} {path : π} {level : String} {program : List UInt8}
    (hwords : parse words = .ok ⟨path, level⟩)
    (honest : ∀ source, openFile path = .ok source → Source.Honest source)
    (hfound : Content.Found 192 (openFile path) (.program program)) :
    (main parse logging openFile environment words).stdout = Listing.rows program := by
  have hcapacity : Layout.standard.capacity = 192 := rfl
  obtain ⟨c, hc, hloaded⟩ := Content.exists_found honest (.zeroed .standard)
  rw [hcapacity] at hc
  obtain rfl := hfound.unique hc
  have hshown := shown_of_loaded selects environment hwords
    (fun code hcode => by cases hcode; exact hfound.length_le) hloaded
  exact hshown.2

/-- **When two files are listed alike.**  Let two command lines name files, which need not be in
one place or be read in the same pieces, and let the files be honest and have at most 192 bytes.
Let the logs of the two runs select.  Then the standard output is the same if and only if the files
are equal once zeros complete the last instruction of each.  So files of one length are listed alike
only if they are equal, and files that are listed alike differ in one or two zeros at the end of one
of them at most. -/
theorem stdout_eq_iff {σ : Type u} {τ : Type v} [Source σ] [Source τ] {α π ω φ : Type}
    [ToString π] {parse : α → Except Exit (Process.Args π)} {logging logging' : Logging ω φ}
    {admits admits' : φ → Event → Bool} (selects : logging.Selects admits)
    (selects' : logging'.Selects admits')
    {openFile : π → Except IoError σ} {openFile' : π → Except IoError τ}
    (environment environment' : Option ω) {words words' : α}
    {path path' : π} {level level' : String} {f g : List UInt8}
    (hwords : parse words = .ok ⟨path, level⟩) (hwords' : parse words' = .ok ⟨path', level'⟩)
    (honest : ∀ source, openFile path = .ok source → Source.Honest source)
    (honest' : ∀ source, openFile' path' = .ok source → Source.Honest source)
    (hf : Content.Found 192 (openFile path) (.program f))
    (hg : Content.Found 192 (openFile' path') (.program g)) :
    let stdout := (Process.main parse logging openFile environment words).stdout
    let stdout' := (Process.main parse logging' openFile' environment' words').stdout
    (stdout = stdout' ↔ Listing.padded f = Listing.padded g) ∧
      (f.length = g.length → (stdout = stdout' ↔ f = g)) ∧
      (stdout = stdout' → ∃ n ≤ 2, f = g ++ List.replicate n 0 ∨ g = f ++ List.replicate n 0) := by
  intro stdout stdout'
  have hiff : stdout = stdout' ↔ Listing.padded f = Listing.padded g := by
    rw [← Listing.rows_eq_iff, ← Process.stdout_main selects environment hwords honest hf,
      ← Process.stdout_main selects' environment' hwords' honest' hg]
  refine ⟨hiff, ?_, ?_⟩
  · intro hlength
    rw [hiff, Listing.padded_eq_iff_of_length_eq hlength]
  · intro h
    exact Listing.exists_eq_append_of_padded_eq (hiff.mp h)

/-- One byte and the same byte before two zeros are listed alike, although the second file comes
in two pieces and with another log level. -/
theorem stdout_eq_iff_of_zeros :
    let openFile : String → Except IoError (List Reading) := fun path =>
      if path = "a" then .ok [.exactly [7]] else .ok [.exactly [7, 0], .exactly [0]]
    let words := ["--log-level", "debug", "b"]
    (CommandLine.logging.Selects Filter.allows ∧
        CommandLine.parse ["a"] = .ok ⟨"a", "warn"⟩ ∧
        CommandLine.parse words = .ok ⟨"b", "debug"⟩) ∧
      (CommandLine.run openFile none ["a"]).stdout =
        (CommandLine.run openFile none words).stdout ∧
      ∃ n ≤ 2, [7] = [7, 0, 0] ++ List.replicate n (0 : UInt8) ∨
        [7, 0, 0] = [7] ++ List.replicate n (0 : UInt8) := by
  intro openFile words
  have hwords : CommandLine.parse ["a"] = .ok ⟨"a", "warn"⟩ := rfl
  have hwords' : CommandLine.parse words = .ok ⟨"b", "debug"⟩ := rfl
  have honest : ∀ source, openFile "a" = .ok source → Source.Honest source := by
    rintro source ⟨⟩
    exact (Source.follows_self _).honest (by decide)
  have honest' : ∀ source, openFile "b" = .ok source → Source.Honest source := by
    rintro source ⟨⟩
    exact (Source.follows_self _).honest (by decide)
  have hf : Content.Found 192 (openFile "a") (.program [7]) :=
    .program ⟨2, by decide, rfl, rfl⟩ (by decide)
  have hg : Content.Found 192 (openFile "b") (.program [7, 0, 0]) :=
    .program ⟨3, by decide, rfl, rfl⟩ (by decide)
  obtain ⟨hiff, -, hzeros⟩ := stdout_eq_iff CommandLine.selects_logging
    CommandLine.selects_logging none none hwords hwords' honest honest' hf hg
  have hstdout := hiff.mpr rfl
  exact ⟨⟨CommandLine.selects_logging, hwords, hwords'⟩, hstdout, hzeros hstdout⟩

end FlatMemory
