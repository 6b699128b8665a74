/-!
# Fields between separators

The stretches of a text between the separators, in order.  There is one more of them than there
are separators, and some may be empty.
-/

namespace FlatMemory.Text

/-- The text before the first character that is a stop, and the text from there on. -/
def splitBefore (stop : Char → Bool) (text : List Char) : List Char × List Char :=
  (text.takeWhile fun ch => !stop ch, text.dropWhile fun ch => !stop ch)

/-- The stretches between the separators. -/
def fields (sep : Char) : List Char → List (List Char)
  | [] => [[]]
  | c :: cs =>
    if c = sep then [] :: fields sep cs
    else
      match fields sep cs with
      | [] => [[c]]
      | first :: rest => (c :: first) :: rest

theorem fields_ne_nil (sep : Char) (cs : List Char) : fields sep cs ≠ [] := by
  cases cs with
  | nil => simp [fields]
  | cons c cs =>
    rw [fields]
    split
    · simp
    · split <;> simp

/-- Nothing is lost: the fields with separators between them are the text. -/
theorem intercalate_fields (sep : Char) (cs : List Char) :
    [sep].intercalate (fields sep cs) = cs := by
  induction cs with
  | nil => rfl
  | cons c cs ih =>
    rw [fields]
    by_cases h : c = sep
    · rw [if_pos h]
      subst h
      cases hf : fields c cs with
      | nil => exact absurd hf (fields_ne_nil c cs)
      | cons first rest => simpa [List.intercalate, List.intersperse, hf] using ih
    · rw [if_neg h]
      cases hf : fields sep cs with
      | nil => exact absurd hf (fields_ne_nil sep cs)
      | cons first rest =>
        rw [hf] at ih
        cases rest with
        | nil => simpa [List.intercalate] using ih
        | cons second rest => simpa [List.intercalate] using ih

end FlatMemory.Text
