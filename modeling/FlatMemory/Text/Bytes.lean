/-!
# Places in a text

A place in a text is the number of bytes before it, each character counted with the
bytes of its UTF-8 form.  A text can be cut at a place between two characters.
-/

namespace FlatMemory.Text

/-- The characters with their places, the first one at `start`. -/
def placesFrom (start : Nat) : List Char → List (Nat × Char)
  | [] => []
  | ch :: text => (start, ch) :: placesFrom (start + ch.utf8Size) text

def places (text : List Char) : List (Nat × Char) :=
  placesFrom 0 text

/-- The text from a place on, if a cut can be made there. -/
def from? (start : Nat) (text : List Char) : Option (List Char) :=
  match start, text with
  | 0, text => some text
  | _ + 1, [] => none
  | start + 1, ch :: text =>
    if ch.utf8Size ≤ start + 1 then from? (start + 1 - ch.utf8Size) text else none

/-- The text before a place, if a cut can be made there. -/
def before? (stop : Nat) (text : List Char) : Option (List Char) :=
  match stop, text with
  | 0, _ => some []
  | _ + 1, [] => none
  | stop + 1, ch :: text =>
    if ch.utf8Size ≤ stop + 1 then
      (before? (stop + 1 - ch.utf8Size) text).map (ch :: ·)
    else none

/-- The text between two places, if both cuts can be made. -/
def between? (start stop : Nat) (text : List Char) : Option (List Char) :=
  (from? start text).bind (before? (stop - start))

end FlatMemory.Text
