/-!
# Parts of a text

A text is cut at every place where a separator stands.
-/

namespace DisplayFilter.Text

/-- The parts of a text between separators. A text without separators is one part. -/
def parts (separator : Char) : List Char → List (List Char)
  | [] => [[]]
  | c :: rest =>
    if c = separator then [] :: parts separator rest
    else match parts separator rest with
      | [] => [[c]]
      | part :: others => (c :: part) :: others

end DisplayFilter.Text
