import FlatMemory.Log.Directive.Reading
import FlatMemory.Text.Fields

/-!
# Log filters

A filter decides which events are shown.  It is written as a list of directives
separated by commas.  For each event the directive decides that asks for the most of
those that apply; an event of which no directive speaks is not shown.

The filter of the environment counts as a whole or not at all.  That of the command line
is read as far as possible, and a complaint is made about each directive that is passed
over.

## Main definitions

* `Filter` — directives in the order in which they were written.
* `Filter.parse?`, `Filter.parseKnown` — all directives or nothing, and those that
  can be read.
* `Filter.complaints` — what is said about the others.
* `Filter.decisive`, `Filter.allows` — the directive that decides about an event, and
  whether the event is shown.

## Main results

* `Filter.complaints_eq_nil_iff` — there are complaints about exactly the texts that
  cannot be read as a whole.
-/

namespace FlatMemory

/-- Directives in the order in which they were written. -/
structure Filter where
  directives : List Directive
  deriving DecidableEq, Repr

namespace Filter

/-! ### Reading -/

/-- The texts between the commas; nothing between two commas says nothing. -/
def parts (text : String) : List (List Char) :=
  (Text.fields ',' text.toList).filter fun part => part ≠ []

/-- Reads a filter of which every directive can be read. -/
def parse? (text : String) : Option Filter :=
  ((parts text).mapM fun part => (Directive.parse part).toOption).map Filter.mk

/-- Reads a filter and passes over what cannot be read. -/
def parseKnown (text : String) : Filter :=
  ⟨(parts text).filterMap fun part => (Directive.parse part).toOption⟩

/-- What is said about a text between two commas, if it cannot be read. -/
def complaint? (part : List Char) : Option String :=
  match Directive.parse part with
  | .ok _ => none
  | .error why => some ("ignoring `" ++ String.ofList part ++ "`: " ++ why.text)

/-- What is said about all that is passed over, in order. -/
def complaints (text : String) : List String :=
  (parts text).filterMap complaint?

/-! ### Deciding -/

/-- The directive that decides, of one that decided so far and one more that applies. -/
def stronger (d : Option Directive) (e : Directive) : Option Directive :=
  match d with
  | none => some e
  | some d => if d.yieldsTo e then some e else some d

/-- The directive that decides about an event. -/
def decisive (f : Filter) (e : Event) : Option Directive :=
  (f.directives.filter (·.applies e)).foldl stronger none

def allows (f : Filter) (e : Event) : Bool :=
  (f.decisive e).any fun d => e.level.rank ≤ d.verbosity

/-! ### Laws -/

theorem complaint?_eq_none_iff (part : List Char) :
    complaint? part = none ↔ ∃ d, (Directive.parse part).toOption = some d := by
  rw [complaint?]
  cases Directive.parse part <;> simp [Except.toOption]

/-- A text without complaints can be read as a whole, and only such a text. -/
theorem complaints_eq_nil_iff (text : String) :
    complaints text = [] ↔ (parse? text).isSome := by
  suffices h : ∀ parts : List (List Char), parts.filterMap complaint? = [] ↔
      (parts.mapM fun part => (Directive.parse part).toOption).isSome by
    simpa [complaints, parse?] using h (parts text)
  intro parts
  induction parts with
  | nil => simp
  | cons part parts ih =>
    cases hpart : (Directive.parse part).toOption with
    | none =>
      have hcomplaint : complaint? part ≠ none := fun h => by
        obtain ⟨d, hd⟩ := (complaint?_eq_none_iff part).1 h
        simp [hpart] at hd
      obtain ⟨words, hwords⟩ := Option.ne_none_iff_exists'.1 hcomplaint
      simp [hwords, hpart]
    | some d =>
      have hcomplaint : complaint? part = none := (complaint?_eq_none_iff part).2 ⟨d, hpart⟩
      rw [List.filterMap_cons_none hcomplaint, ih]
      cases hparts : parts.mapM fun part => (Directive.parse part).toOption <;>
        simp [hpart, hparts]

end Filter

end FlatMemory
