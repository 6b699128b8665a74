/-!
# Blanks

The characters that take up room and show nothing, and texts without the blanks around them.
-/

namespace FlatMemory.Text

/-- The blanks of Unicode: the tabulator, the breaks between lines, and spaces of every
width. -/
def isBlank (ch : Char) : Bool :=
  (0x9 ≤ ch.toNat && ch.toNat ≤ 0xD) || (0x2000 ≤ ch.toNat && ch.toNat ≤ 0x200A)
    || [0x20, 0x85, 0xA0, 0x1680, 0x2028, 0x2029, 0x202F, 0x205F, 0x3000].contains ch.toNat

/-- The text from its first character that is not a blank. -/
def unindented (text : List Char) : List Char :=
  text.dropWhile isBlank

/-- The text from its first character that is not a blank to its last one. -/
def trimmed (text : List Char) : List Char :=
  (unindented (unindented text).reverse).reverse

end FlatMemory.Text
