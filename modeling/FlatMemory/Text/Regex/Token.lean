/-!
# Tokens of regular expressions

An expression is matched by an automaton that reads bytes.  The automaton knows no tables
of Unicode, so that nothing can be asked of it that depends on the kind or the case of
characters beyond ASCII; and what it matches is always text, never a lone byte of a
longer character.

## Main definitions

* `Regex.Flags` — what is switched on in a part of an expression.
* `Regex.Atom`, `Regex.Item` — what stands for itself in an expression, and in a class.
* `Regex.Token` — the smallest parts of an expression.
* `Regex.Token.isSupported` — whether the automaton can be asked for a token.
-/

namespace FlatMemory.Regex

/-! ### Flags -/

/-- What is switched on in a part of an expression, as far as it decides what the part
can hold. -/
structure Flags where
  ignoreCase : Bool
  /-- Characters are matched, and not bytes. -/
  unicode : Bool
  /-- Blanks and comments in the expression mean nothing. -/
  verbose : Bool
  deriving DecidableEq, Repr

namespace Flags

def initial : Flags := ⟨false, true, false⟩

/-- The letters of all switches: case, lines, dots, greed, Unicode, line ends, blanks. -/
def letters : List Char := ['i', 'm', 's', 'U', 'u', 'R', 'x']

/-- Whether no element stands in a list twice. -/
def isDistinct {α : Type} [BEq α] : List α → Bool
  | [] => true
  | a :: as => !as.contains a && isDistinct as

/-- Whether a text says what is switched on and, after a minus sign, what is switched
off.  Nothing is named twice, and a minus sign does not stand at the end. -/
def isChange (text : List Char) : Bool :=
  text.all (fun ch => ch == '-' || letters.contains ch) && isDistinct text
    && text.getLast? != some '-'

def switch (text : List Char) (letter : Char) (state : Bool) : Bool :=
  if (text.takeWhile (· != '-')).contains letter then true
  else if text.contains letter then false
  else state

def change (f : Flags) (text : List Char) : Flags where
  ignoreCase := switch text 'i' f.ignoreCase
  unicode := switch text 'u' f.unicode
  verbose := switch text 'x' f.verbose

end Flags

/-! ### Tokens -/

/-- What is matched as a whole. -/
inductive Atom
  | char (ch : Char)
  /-- The byte of this number, or the character of this number where characters are
  matched. -/
  | byte (ch : Char)
  | any
  | anchor
  /-- The edge of a word, or any other place. -/
  | wordBoundary
  /-- A digit, a blank or a character of a word, or any other character. -/
  | kind (negated : Bool)
  | property
  deriving DecidableEq, Repr

/-- What stands in a class. -/
inductive Item
  | char (ch : Char)
  | range (first last : Char)
  /-- A named class of ASCII, or all but the characters of one. -/
  | named (negated : Bool)
  /-- A digit, a blank or a character of a word, or any other character. -/
  | kind (negated : Bool)
  | property
  deriving DecidableEq, Repr

/-- The smallest parts of an expression. -/
inductive Token
  | atom (a : Atom)
  | repetition
  /-- A change of the flags for the rest of the group. -/
  | switch
  | groupStart (name : Option (List Char))
  | groupEnd
  | bar
  | classStart (negated : Bool)
  | classEnd
  | item (i : Item)
  /-- What joins two parts of a class: both, the first only, or just one. -/
  | operator
  deriving DecidableEq, Repr

/-! ### What is supported -/

/-- Whether a number is that of a character of ASCII. -/
def isAscii (ch : Char) : Bool := ch.toNat < 128

/-- Characters can be matched, but not in either case; bytes can be matched as far as
they are characters of ASCII.  Any character, and any other than some, are more than
that. -/
def Atom.isSupported (f : Flags) : Atom → Bool
  | char _ => !(f.unicode && f.ignoreCase)
  | byte ch => if f.unicode then !f.ignoreCase else isAscii ch
  | any => f.unicode
  | anchor | wordBoundary => true
  | kind negated => !f.unicode && !negated
  | property => false

/-- The same within a class. -/
def Item.isSupported (f : Flags) : Item → Bool
  | char ch => if f.unicode then !f.ignoreCase else isAscii ch
  | range _ last => if f.unicode then !f.ignoreCase else isAscii last
  | named negated => if f.unicode then !f.ignoreCase else !negated
  | kind negated => !f.unicode && !negated
  | property => false

namespace Token

/-- Whether the automaton can be asked for a token where some flags are in force. -/
def isSupported (f : Flags) : Token → Bool
  | atom a => a.isSupported f
  | item i => i.isSupported f
  | classStart negated => f.unicode || !negated
  | _ => true

/-- The name that a token gives to a group. -/
def name? : Token → Option (List Char)
  | groupStart name => name
  | _ => none

end Token

end FlatMemory.Regex
