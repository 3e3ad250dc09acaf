/-
  Cutting a text at a separator.
-/

namespace Bearer.Text

/-- The fields between the separators: one more than there are separators. -/
def split (separator : Char) : List Char → List (List Char)
  | [] => [[]]
  | c :: s =>
    if c = separator then [] :: split separator s
    else
      match split separator s with
      | [] => [[c]]
      | field :: fields => (c :: field) :: fields

end Bearer.Text
