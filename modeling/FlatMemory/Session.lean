import FlatMemory.FileTree
import FlatMemory.Operation
import FlatMemory.Source.Script

/-!
# Sessions

A session keeps several memories, each in a numbered slot, and several scripted
sources, each under a name.  A named source outlives the load that reads it: the next
load goes on where the last one stopped.

## Main definitions

* `Session` — the memories, the named sources and the files.
* `Session.Step` — what can be asked of a session.
* `Session.Answer` — what a session answers.
* `Session.step`, `Session.run` — one step, and a list of steps.
-/

namespace FlatMemory

/-- A memory with its layout. -/
abbrev AnyMemory := Σ L : Layout, Memory L

/-- Memories by slot, sources by name, files by path. -/
structure Session where
  /-- The memories; a slot holds one at most. -/
  slots : List (Nat × AnyMemory)
  scripts : List (String × Script)
  files : FileTree

namespace Session

def start (files : FileTree) : Session := ⟨[], [], files⟩

/-- What can be asked of a session. -/
inductive Step
  | allocate (slot : Nat) (layout : Layout)
  | name (name : String) (script : Script)
  | perform (slot : Nat) (op : Operation Script)
  | loadNamed (slot : Nat) (name : String)
  | release (slot : Nat)
  deriving Repr

/-- The answer to a step that was carried out. -/
structure Outcome where
  result : Except Fault Value
  log : List Event
  /-- The memory in the slot afterwards, for a step that may have changed it. -/
  state : Option AnyMemory
  tally : Option Tally

/-- What a session answers. -/
inductive Answer
  /-- The slot is empty, and nothing happened. -/
  | vacant
  | outcome (o : Outcome)

/-! ### Slots and names -/

def memory? (s : Session) (slot : Nat) : Option AnyMemory :=
  s.slots.lookup slot

def put (s : Session) (slot : Nat) (m : AnyMemory) : Session :=
  { s with slots := (slot, m) :: s.slots.filter fun entry => entry.1 ≠ slot }

def clear (s : Session) (slot : Nat) : Session :=
  { s with slots := s.slots.filter fun entry => entry.1 ≠ slot }

/-- The source of a name; an unknown name stands for a source with nothing in it. -/
def script (s : Session) (name : String) : Script :=
  (s.scripts.lookup name).getD ⟨[]⟩

def setScript (s : Session) (name : String) (source : Script) : Session :=
  { s with scripts := (name, source) :: s.scripts.filter fun entry => entry.1 ≠ name }

/-! ### Steps -/

/-- The operations after which the whole memory is shown. -/
def showsState : Operation Script → Bool
  | .size | .store _ _ | .loadCode _ | .loadFile _ => true
  | _ => false

/-- One step, and the session after it. -/
def step (s : Session) : Step → Answer × Session
  | .allocate slot layout =>
    match Memory.allocate layout Memory.addressSpace with
    | (.ok m, log) =>
      (.outcome ⟨.ok .done, log, some ⟨layout, m⟩, none⟩, s.put slot ⟨layout, m⟩)
    | (.error why, log) =>
      (.outcome ⟨.error (.failure why), log, s.memory? slot, none⟩, s)
  | .name name script => (.outcome ⟨.ok .done, [], none, none⟩, s.setScript name script)
  | .perform slot op =>
    match s.memory? slot with
    | none => (.vacant, s)
    | some ⟨L, m⟩ =>
      let r := op.perform s.files.openFile m
      let state := if showsState op then some ⟨L, r.memory⟩ else none
      (.outcome ⟨r.result, r.log, state, r.tally⟩, s.put slot ⟨L, r.memory⟩)
  | .loadNamed slot name =>
    match s.memory? slot with
    | none => (.vacant, s)
    | some ⟨L, m⟩ =>
      let report := m.loadCode (s.script name)
      let r := Response.ofConclusion report.toConclusion (some report.tally)
      (.outcome ⟨r.result, r.log, some ⟨L, r.memory⟩, r.tally⟩,
        (s.put slot ⟨L, r.memory⟩).setScript name report.rest)
  | .release slot =>
    match s.memory? slot with
    | none => (.vacant, s)
    | some ⟨_, m⟩ => (.outcome ⟨.ok .done, m.release, none, none⟩, s.clear slot)

def run (s : Session) : List Step → List Answer
  | [] => []
  | step :: steps =>
    let (answer, s) := s.step step
    answer :: s.run steps

end Session

end FlatMemory
