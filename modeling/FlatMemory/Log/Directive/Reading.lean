import FlatMemory.Log.Directive
import FlatMemory.Text.Alphanumeric
import FlatMemory.Text.Blank
import FlatMemory.Text.Bytes
import FlatMemory.Text.Fields
import FlatMemory.Text.Numeral
import FlatMemory.Text.Regex

/-!
# Reading directives

In full a directive is written `target[span{field=value}]=level`, and every piece can be
left out.  Without a level everything is shown that is asked for; a level alone is a
verbosity for all events.

Where the pieces of a directive are is found out without the blanks around it; each
piece is then cut out of the whole text at these places.  So blanks behind a directive
belong to its last piece, and blanks in front of it move every piece to the left.

## Main definitions

* `Directive.Complaint` — why a directive cannot be read.
* `Directive.verbosity?` — reads a level.
* `Directive.Clause`, `Directive.Clause.parse` — the pieces of a directive.
* `Directive.parse` — reads a directive.
-/

namespace FlatMemory.Directive

/-- Why a directive cannot be read. -/
inductive Complaint
  | malformed
  | level
  | value (flaw : Regex.Flaw)
  deriving DecidableEq, Repr

def Complaint.text : Complaint → String
  | .malformed => "invalid filter directive"
  | .level =>
    "error parsing level filter: expected one of \"off\", \"error\", \"warn\", \"info\", "
      ++ "\"debug\", \"trace\", or a number 0-5"
  | .value .malformed => "invalid field filter: error building NFA"
  | .value .wordBoundary =>
    "invalid field filter: unsupported regex feature for DFAs: cannot build DFAs for "
      ++ "regexes with Unicode word boundaries; switch to ASCII word boundaries, or "
      ++ "heuristically enable Unicode word boundaries or use a different regex engine"

/-! ### Verbosities -/

def verbosities : List (String × Nat) :=
  [("off", 0), ("error", 1), ("warn", 2), ("info", 3), ("debug", 4), ("trace", 5)]

/-- A verbosity by its number, or by its name in letters of either case. -/
def verbosity? (text : List Char) : Option Nat :=
  match Numeral.natural? text with
  | some n => if n ≤ Level.trace.rank then some n else none
  | none => (verbosities.find? fun v => v.1.toList == text.map Char.toLower).map (·.2)

/-! ### Pieces -/

/-- A directive as it is written. -/
structure Clause where
  /-- What stands before the brackets and the level. -/
  target : Option (List Char)
  /-- What stands in the brackets, before the braces. -/
  span : Option (List Char)
  /-- What stands in the braces. -/
  field : Option FieldTest
  /-- What stands after the equals sign. -/
  level : Option (List Char)
  deriving DecidableEq, Repr

namespace Clause

/-- The characters with which a directive can begin. -/
def isFirst (ch : Char) : Bool :=
  Text.isAlphanumeric ch || [':', '-', '_', '['].contains ch

/-- The characters from the first one that is a stop. -/
def stopAt (stop : Char → Bool) (places : List (Nat × Char)) : List (Nat × Char) :=
  places.dropWhile fun p => !stop p.2

/-- The piece between two places.  No piece begins or ends inside a character. -/
def piece (text : List Char) (start stop : Nat) : Except Complaint (List Char) :=
  match Text.between? start stop text with
  | some piece => .ok piece
  | none => .error .malformed

/-- The piece from a place on, with all that follows. -/
def lastPiece (text : List Char) (start : Nat) : Except Complaint (List Char) :=
  match Text.from? start text with
  | some piece => .ok piece
  | none => .error .malformed

/-- Reads a value: a number, or an expression that has to match. -/
def parseValue (text : List Char) : Except Complaint (List Char) :=
  if Numeral.isReal text then .ok text
  else
    match Regex.flaw? text with
    | none => .ok text
    | some flaw => .error (.value flaw)

/-- Reads a field: a name, or a name and a value.  A second equals sign ends the
value. -/
def parseField (text : List Char) : Except Complaint FieldTest :=
  match Text.splitBefore (· == '=') text with
  | (name, []) => .ok ⟨name, none⟩
  | (name, _ :: rest) =>
    (parseValue (Text.splitBefore (· == '=') rest).1).map (⟨name, some ·⟩)

/-- Reads what follows the brackets: a level, or nothing. -/
def parseEnd (text : List Char) (places : List (Nat × Char)) :
    Except Complaint (Option (List Char)) :=
  match places with
  | [] => .ok none
  | (n, ch) :: _ => if ch = '=' then (lastPiece text (n + 1)).map some else .error .malformed

/-- Reads what follows the opening brace.  Empty braces ask for nothing and are
refused. -/
def parseBraces (text : List Char) (target span : Option (List Char)) (start : Nat)
    (places : List (Nat × Char)) : Except Complaint Clause :=
  match stopAt (· == '\x7d') places with
  | [] => .error .malformed
  | (stop, _) :: after =>
    if stop = start then .error .malformed
    else do
      let field ← parseField (← piece text start stop)
      match after with
      | (_, ']') :: after =>
        let level ← parseEnd text after
        .ok ⟨target, span, some field, level⟩
      | _ => .error .malformed

/-- Reads what follows the opening bracket. -/
def parseBrackets (text : List Char) (target : Option (List Char)) (start : Nat)
    (places : List (Nat × Char)) : Except Complaint Clause :=
  match stopAt (fun ch => ch == ']' || ch == '\x7b') places with
  | [] => .error .malformed
  | (stop, ch) :: after => do
    let span ← piece text start stop
    if ch = ']' then
      let level ← parseEnd text after
      .ok ⟨target, some span, none, level⟩
    else parseBraces text target (if span = [] then none else some span) (stop + 1) after

def parse (text : List Char) : Except Complaint Clause :=
  let places := Text.places (Text.trimmed text)
  if places.head?.any fun p => isFirst p.2 then
    match stopAt (fun ch => ch == '=' || ch == '[') places with
    | [] => .ok ⟨some text, none, none, none⟩
    | (stop, ch) :: after => do
      let target ← piece text 0 stop
      if ch = '=' then
        let level ← lastPiece text (stop + 1)
        .ok ⟨some target, none, none, some level⟩
      else parseBrackets text (if target = [] then none else some target) (stop + 1) after
  else .error .malformed

/-- The verbosity that is written; if none is, everything is shown. -/
def verbosity (clause : Clause) : Except Complaint Nat :=
  match clause.level with
  | none | some [] => .ok Level.trace.rank
  | some text =>
    match verbosity? text with
    | some v => .ok v
    | none => .error .level

/-- What a clause means.  A word alone is a verbosity if it can be one, and otherwise a
target. -/
def directive (clause : Clause) : Except Complaint Directive :=
  match clause with
  | ⟨some word, none, none, none⟩ =>
    match verbosity? word with
    | some v => .ok ⟨none, none, none, v⟩
    | none => .ok ⟨some word, none, none, Level.trace.rank⟩
  | ⟨target, span, field, _⟩ => clause.verbosity.map (⟨target, span, field, ·⟩)

end Clause

def parse (text : List Char) : Except Complaint Directive := do
  let clause ← Clause.parse text
  clause.directive

end FlatMemory.Directive
