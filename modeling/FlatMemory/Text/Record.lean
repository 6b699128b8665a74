/-!
# Field-by-field text

A value is inspected as its type's name followed by its fields in braces, and a
sequence as its entries in square brackets.
-/

namespace FlatMemory.Text

/-- The entries between square brackets, separated by a comma and a space. -/
def sequence (entries : List String) : String :=
  "[" ++ ", ".intercalate entries ++ "]"

/-- The name, then the fields in order between braces. -/
def record (name : String) (fields : List (String × String)) : String :=
  name ++ " \x7b " ++ ", ".intercalate (fields.map fun f => f.1 ++ ": " ++ f.2) ++ " \x7d"

end FlatMemory.Text
