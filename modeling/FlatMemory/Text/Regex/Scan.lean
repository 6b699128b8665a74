import FlatMemory.Text.Alphanumeric
import FlatMemory.Text.Blank
import FlatMemory.Text.Fields
import FlatMemory.Text.Hex
import FlatMemory.Text.Regex.Token

/-!
# Scanning regular expressions

An expression is taken apart into tokens, each with the flags that are in force where it
stands.  Groups and classes have to be closed.

The braces of a counted repetition are no part of these expressions: they stand between
braces themselves, and none can be closed in them.

## Main definitions

* `Regex.skip` — a text without the blanks and comments that mean nothing.
* `Regex.readEscape` — what a backslash stands for.
* `Regex.Scanner` — where in an expression the reader is.
* `Regex.Scanner.next` — the next token.
* `Regex.scan` — all tokens of an expression.
-/

namespace FlatMemory.Regex

/-! ### Blanks and comments -/

/-- The text from the first character that is neither a blank nor in a comment.  A
comment goes from a number sign to the end of the line. -/
def skipFrom (comment : Bool) : List Char → List Char
  | [] => []
  | ch :: text =>
    if comment then skipFrom (ch != '\n') text
    else if Text.isBlank ch then skipFrom false text
    else if ch = '#' then skipFrom true text
    else ch :: text

/-- The text from the next character that means something. -/
def skip (f : Flags) (text : List Char) : List Char :=
  if f.verbose then skipFrom false text else text

/-- The next character but for blanks and the sign of a comment; this looks into a
comment. -/
def peek (f : Flags) (text : List Char) : Option Char :=
  if f.verbose then
    match Text.unindented text with
    | '#' :: comment => (Text.unindented comment).head?
    | rest => rest.head?
  else text.head?

/-! ### Escapes -/

/-- Reads some hexadecimal digits. -/
def readHex (f : Flags) (digits value : Nat) (text : List Char) : Option (Nat × List Char) :=
  match digits with
  | 0 => some (value, text)
  | digits + 1 =>
    match skip f text with
    | [] => none
    | ch :: rest =>
      match Hex.value? ch.toLower with
      | some digit => readHex f digits (16 * value + digit) rest
      | none => none

/-- How many digits the number of a character has after a letter. -/
def hexDigits? : Char → Option Nat
  | 'x' => some 2
  | 'u' => some 4
  | 'U' => some 8
  | _ => none

/-- The characters that a letter stands for. -/
def controls : List (Char × Char) :=
  [('a', '\x07'), ('f', '\x0c'), ('n', '\n'), ('r', '\r'), ('t', '\t'), ('v', '\x0b')]

/-- The number of a character. -/
def readNumber (f : Flags) (letter : Char) (digits : Nat) (text : List Char) :
    Option (Atom × List Char) :=
  match readHex f digits 0 text with
  | none => none
  | some (n, rest) =>
    if n.isValidChar then
      some (if letter = 'x' then .byte (Char.ofNat n) else .char (Char.ofNat n), rest)
    else none

/-- What stands after a backslash: a number, a property of one letter, a kind of
character, a control character, a place, or a mark of ASCII that stands for itself. -/
def readEscape (f : Flags) : List Char → Option (Atom × List Char)
  | [] => none
  | letter :: text =>
    match hexDigits? letter, controls.lookup letter with
    | some digits, _ => readNumber f letter digits text
    | _, some ch => some (.char ch, text)
    | none, none =>
      if letter = 'p' ∨ letter = 'P' then
        match skip f text with
        | [] => none
        | ch :: rest => if ch = '\\' ∨ ch = '\x7b' then none else some (.property, rest)
      else if ['d', 's', 'w'].contains letter then some (.kind false, text)
      else if ['D', 'S', 'W'].contains letter then some (.kind true, text)
      else if ['A', 'z'].contains letter then some (.anchor, text)
      else if ['b', 'B', '<', '>'].contains letter then some (.wordBoundary, text)
      else if isAscii letter && !letter.isAlphanum then some (.char letter, text)
      else none

/-! ### Groups -/

/-- The name of a group: letters, digits, underscores, points and square brackets, of
which a letter or an underscore is the first. -/
def isName : List Char → Bool
  | [] => false
  | first :: rest =>
    (first == '_' || Text.isAlphabetic first)
      && rest.all fun ch => ['_', '.', '[', ']'].contains ch || Text.isAlphanumeric ch

/-- Where in an expression the reader is. -/
inductive Place
  | expression
  /-- At the beginning of a class, where minus signs stand for themselves; so does a
  closing bracket, as long as the class is bare. -/
  | classHead (bare : Bool)
  | classBody
  deriving DecidableEq, Repr

/-- What has been read of an expression. -/
structure Scanner where
  flags : Flags
  /-- The flags around the groups that are open, the innermost first. -/
  outer : List Flags
  /-- How many classes are open. -/
  classes : Nat
  place : Place
  deriving DecidableEq, Repr

namespace Scanner

def start : Scanner := ⟨.initial, [], 0, .expression⟩

/-- Opens a group with flags of its own. -/
def enter (s : Scanner) (f : Flags) : Scanner :=
  { s with flags := f, outer := s.flags :: s.outer }

/-- Reads the name of a group, up to the angle bracket. -/
def nextNamed (s : Scanner) (text : List Char) : Option (Token × Scanner × List Char) :=
  match Text.splitBefore (· == '>') text with
  | (name, _ :: rest) =>
    if isName name then some (.groupStart (some name), s.enter s.flags, rest) else none
  | (_, []) => none

/-- Reads the beginning of a group after its bracket: its name, its flags, or nothing of
the kind.  Flags without a group are for the rest of the group around them. -/
def nextGroup (s : Scanner) (text : List Char) : Option (Token × Scanner × List Char) :=
  match text with
  | '?' :: 'P' :: '<' :: rest => s.nextNamed rest
  | '?' :: '<' :: rest => s.nextNamed rest
  | '?' :: rest =>
    match Text.splitBefore (fun ch => ch == ':' || ch == ')') rest with
    | (_, []) => none
    | (change, ')' :: rest) =>
      if Flags.isChange change && change != [] then
        some (.switch, { s with flags := s.flags.change change }, rest)
      else none
    | (change, _ :: rest) =>
      if Flags.isChange change then
        some (.groupStart none, s.enter (s.flags.change change), rest)
      else none
  | _ => some (.groupStart none, s.enter s.flags, text)

/-! ### Classes -/

def classNames : List String :=
  ["alnum", "alpha", "ascii", "blank", "cntrl", "digit", "graph", "lower", "print", "punct",
    "space", "upper", "word", "xdigit"]

/-- Opens a class after its bracket. -/
def enterClass (s : Scanner) (text : List Char) : Token × Scanner × List Char :=
  let text := skip s.flags text
  let negated := text.head? == some '^'
  (.classStart negated, { s with classes := s.classes + 1, place := .classHead true },
    if negated then text.tail else text)

/-- Reads the name of a class of ASCII after its bracket. -/
def readClassName (text : List Char) : Option (Item × List Char) :=
  match text with
  | ':' :: rest =>
    let negated := rest.head? == some '^'
    match Text.splitBefore (· == ':') (if negated then rest.tail else rest) with
    | (name, ':' :: ']' :: rest) =>
      if classNames.contains (String.ofList name) then some (.named negated, rest) else none
    | _ => none
  | _ => none

/-- Reads what stands for itself in a class. -/
def readMember (f : Flags) : List Char → Option (Atom × List Char)
  | [] => none
  | '\\' :: text => readEscape f text
  | ch :: text => some (.char ch, text)

/-- What an atom is in a class. -/
def member? : Atom → Option Item
  | .char ch | .byte ch => some (.char ch)
  | .kind negated => some (.kind negated)
  | .property => some .property
  | .any | .anchor | .wordBoundary => none

/-- The characters between two atoms. -/
def range? (first last : Atom) : Option Item :=
  match member? first, member? last with
  | some (.char a), some (.char b) => if a.toNat ≤ b.toNat then some (.range a b) else none
  | _, _ => none

/-- Reads an item of a class.  A minus sign makes a range, unless the class ends after it
or it is one of two. -/
def readItem (f : Flags) (text : List Char) : Option (Item × List Char) :=
  match readMember f text with
  | none => none
  | some (first, rest) =>
    match skip f rest with
    | '-' :: after =>
      if peek f after = some ']' ∨ peek f after = some '-' then
        (member? first).map (·, '-' :: after)
      else
        match readMember f (skip f after) with
        | some (last, rest) => (range? first last).map (·, rest)
        | none => none
    | rest => (member? first).map (·, rest)

/-- Reads a token in a class. -/
def nextInClass (s : Scanner) (text : List Char) : Option (Token × Scanner × List Char) :=
  let body := { s with place := .classBody }
  match text with
  | '[' :: rest =>
    match readClassName rest with
    | some (i, rest) => some (.item i, body, rest)
    | none => some (s.enterClass rest)
  | ']' :: rest =>
    some (.classEnd,
      { s with
        classes := s.classes - 1
        place := if s.classes ≤ 1 then .expression else .classBody },
      rest)
  | '&' :: '&' :: rest | '-' :: '-' :: rest | '~' :: '~' :: rest => some (.operator, body, rest)
  | _ => (readItem s.flags text).map fun i => (.item i.1, body, i.2)

/-! ### Tokens -/

/-- Reads a token outside of classes. -/
def nextInExpression (s : Scanner) (text : List Char) : Option (Token × Scanner × List Char) :=
  match text with
  | [] | '\x7b' :: _ => none
  | '(' :: rest => s.nextGroup (skip s.flags rest)
  | ')' :: rest =>
    match s.outer with
    | [] => none
    | f :: outer => some (.groupEnd, { s with flags := f, outer := outer }, rest)
  | '|' :: rest => some (.bar, s, rest)
  | '[' :: rest => some (s.enterClass rest)
  | '\\' :: rest => (readEscape s.flags rest).map fun a => (.atom a.1, s, a.2)
  | '.' :: rest => some (.atom .any, s, rest)
  | ch :: rest =>
    if ch = '^' ∨ ch = '$' then some (.atom .anchor, s, rest)
    else if ch = '*' ∨ ch = '+' ∨ ch = '?' then
      some (.repetition, s, if rest.head? = some '?' then rest.tail else rest)
    else some (.atom (.char ch), s, rest)

def next (s : Scanner) (text : List Char) : Option (Token × Scanner × List Char) :=
  match s.place, text with
  | .expression, _ => s.nextInExpression text
  | .classHead _, '-' :: rest =>
    some (.item (.char '-'), { s with place := .classHead false }, rest)
  | .classHead true, ']' :: rest =>
    some (.item (.char ']'), { s with place := .classBody }, rest)
  | _, _ => s.nextInClass text

/-- Whether an expression may end here. -/
def isComplete (s : Scanner) : Bool :=
  s.outer.isEmpty && s.classes == 0

end Scanner

/-- The tokens of a text, each with the flags in force. -/
def scan (s : Scanner) (text : List Char) : Option (List (Flags × Token)) :=
  match skip s.flags text with
  | [] => if s.isComplete then some [] else none
  | ch :: rest =>
    match s.next (ch :: rest) with
    | none => none
    | some (token, s', rest') =>
      if _h : rest'.length < text.length then
        (scan s' rest').map ((s.flags, token) :: ·)
      else none
termination_by text.length

end FlatMemory.Regex
