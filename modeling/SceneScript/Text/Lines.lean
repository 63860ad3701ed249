import SceneScript.Text.Blank

/-!
# Lines of a text

A line ends with a line feed, or with a carriage return and a line feed. The text after the last
line feed is a line only if it is not empty, and it keeps a final carriage return.
-/

namespace SceneScript.Text

set_option autoImplicit false

/-- A line feed may be preceded by one carriage return, which is not part of the line. -/
def dropReturn (line : List Char) : List Char :=
  if line.getLast? = some '\r' then line.dropLast else line

/-- The pieces between line feeds as lines; the last piece has no line feed behind it. -/
def endLines : List (List Char) → List (List Char)
  | [] => []
  | [last] => if last.isEmpty then [] else [last]
  | line :: next :: rest => dropReturn line :: endLines (next :: rest)

def lines (text : List Char) : List (List Char) :=
  endLines (text.splitOn '\n')

end SceneScript.Text
