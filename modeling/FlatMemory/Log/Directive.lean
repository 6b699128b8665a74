import FlatMemory.Log
import FlatMemory.Text.Order

/-!
# Directives of a log filter

A directive sets a verbosity for the events that it asks for.  It can ask for a target,
for a span around the event, and for a field.

## Main definitions

* `Log.target` — the target under which a memory reports.
* `Directive` — what is asked for, and the verbosity.
* `Directive.applies` — whether a directive speaks of an event.
* `Directive.yieldsTo` — which of two directives that apply decides.

## Main results

* `Directive.yieldsTo_or` — of two directives one yields to the other.
* `Directive.yieldsTo_trans` — the order in which they yield is transitive.
-/

namespace FlatMemory

/-- The target under which every event of a memory is reported. -/
def Log.target : String := "tiny_vm::vm::ram"

/-- An event as it stands in a log of many targets. -/
def Event.targetLine (e : Event) : String :=
  e.level.label ++ " " ++ Log.target ++ ": " ++ e.text

/-- What a directive asks of a field. -/
structure Directive.FieldTest where
  name : List Char
  /-- The expression that its value has to match, if the value matters. -/
  value : Option (List Char)
  deriving DecidableEq, Repr

/-- Sets how much is shown of the events that are asked for: those whose level has at
most the rank `verbosity`. -/
structure Directive where
  /-- The beginning of the targets that are meant. -/
  target : Option (List Char)
  span : Option (List Char)
  /-- A field of the event, or with a value one of a span around it. -/
  field : Option Directive.FieldTest
  /-- The highest rank that is shown. -/
  verbosity : Nat
  deriving DecidableEq, Repr

namespace Directive

/-- Whether a directive speaks of an event of a memory.  A memory opens no spans, so
nothing that is asked of a span is ever met. -/
def applies (d : Directive) (e : Event) : Bool :=
  d.span.isNone
    && d.target.all (·.isPrefixOf Log.target.toList)
    && d.field.all fun f => f.value.isNone && (e.fieldNames.map String.toList).contains f.name

/-- How far into the target a directive reaches.  One that asks for no target reaches
less far than any other. -/
def reach (d : Directive) : Nat :=
  match d.target with
  | some target => target.length + 1
  | none => 0

/-- The name of the field that is asked for, and nothing if there is none. -/
def fieldName (d : Directive) : List Char :=
  match d.field with
  | some f => f.name
  | none => []

/-- Of two directives that apply to an event the one that asks for more decides: the one
that reaches further, and then the one whose field has the later name, no field coming
before every name.  If they ask for the same, the later directive decides. -/
def yieldsTo (d later : Directive) : Bool :=
  d.reach < later.reach
    || (d.reach == later.reach && Text.precedes d.fieldName later.fieldName)

/-! ### Laws -/

theorem yieldsTo_iff (d later : Directive) :
    d.yieldsTo later = true ↔
      d.reach < later.reach
        ∨ d.reach = later.reach ∧ Text.precedes d.fieldName later.fieldName = true := by
  simp [yieldsTo]

/-- There is always one that decides. -/
theorem yieldsTo_or (d e : Directive) : d.yieldsTo e = true ∨ e.yieldsTo d = true := by
  simp only [yieldsTo_iff]
  rcases Nat.lt_trichotomy d.reach e.reach with h | h | h
  · exact .inl (.inl h)
  · rcases Text.precedes_or d.fieldName e.fieldName with hf | hf
    · exact .inl (.inr ⟨h, hf⟩)
    · exact .inr (.inr ⟨h.symm, hf⟩)
  · exact .inr (.inl h)

/-- What yields to a directive yields to all that this one yields to. -/
theorem yieldsTo_trans {d e f : Directive} (hd : d.yieldsTo e = true)
    (he : e.yieldsTo f = true) : d.yieldsTo f = true := by
  rw [yieldsTo_iff] at hd he ⊢
  rcases hd with hd | ⟨hd, hde⟩ <;> rcases he with he | ⟨he, hef⟩
  · exact .inl (Nat.lt_trans hd he)
  · exact .inl (he ▸ hd)
  · exact .inl (hd ▸ he)
  · exact .inr ⟨hd.trans he, Text.precedes_trans hde hef⟩

end Directive

end FlatMemory
