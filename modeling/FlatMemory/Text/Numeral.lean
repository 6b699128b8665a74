import FlatMemory.Text.Fields

/-!
# Numerals

Numbers as they are written in text: whole ones in decimal digits, and those with a
fraction and an exponent.
-/

namespace FlatMemory.Numeral

/-- Whether a text consists of decimal digits, at least one. -/
def isDigits (text : List Char) : Bool :=
  text ≠ [] && text.all Char.isDigit

/-- A text without the one sign that may stand in front. -/
def unsigned (text : List Char) : List Char :=
  match text with
  | '+' :: rest => rest
  | '-' :: rest => rest
  | _ => text

/-- The number that decimal digits stand for. -/
def value (digits : List Char) : Nat :=
  digits.foldl (fun n ch => 10 * n + (ch.toNat - '0'.toNat)) 0

/-- Reads a whole number, perhaps with a plus sign. -/
def natural? (text : List Char) : Option Nat :=
  let digits := if text.head? = some '+' then text.tail else text
  if isDigits digits then some (value digits) else none

/-- What may follow the digits of a number: nothing, or a power of ten. -/
def isExponent (text : List Char) : Bool :=
  match text with
  | [] => true
  | mark :: power => mark.toLower == 'e' && isDigits (unsigned power)

/-- Digits, perhaps with a point before, among or after them, and perhaps a power of
ten. -/
def isDecimal (text : List Char) : Bool :=
  match Text.splitBefore (!·.isDigit) text with
  | (whole, '.' :: rest) =>
    let (fraction, exponent) := Text.splitBefore (!·.isDigit) rest
    (whole ≠ [] || fraction ≠ []) && isExponent exponent
  | (whole, exponent) => whole ≠ [] && isExponent exponent

/-- The words for numbers without digits. -/
def words : List String := ["inf", "infinity", "nan"]

/-- Whether a text is a number, with or without a sign.  The case of letters does not
matter. -/
def isReal (text : List Char) : Bool :=
  isDecimal (unsigned text)
    || words.contains (String.ofList ((unsigned text).map Char.toLower))

end FlatMemory.Numeral
