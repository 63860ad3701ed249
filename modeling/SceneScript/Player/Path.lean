/-!
# Paths as text

Names separated by slashes. A path that starts with a slash is absolute.
-/

namespace SceneScript

set_option autoImplicit false

/-- A path cut at its slashes; empty parts are kept. -/
def pathParts (path : String) : List String :=
  (path.toList.splitOn '/').map String.ofList

/-- A path as text, a name behind a directory. No second slash is put behind one that is there. -/
def joinPath (directory name : String) : String :=
  if directory.isEmpty || name.startsWith "/" then name
  else if directory.endsWith "/" then directory ++ name
  else directory ++ "/" ++ name

/-- The parts of a directory without those at the end that lead nowhere; the first part is kept. -/
def trimParts : List String → List String
  | [] => []
  | first :: rest => first :: (rest.reverse.dropWhile fun part => part = "" ∨ part = ".").reverse

/-- The directory part of a path that ends in a name; a name right below the root is in the root. -/
def parentPath (path : String) : String :=
  match trimParts (pathParts path).dropLast with
  | [""] => "/"
  | parts => "/".intercalate parts

/--
The parts of a path that count when paths are compared: whether it is absolute, and its names
without empty ones and without dots, except for a dot at the front of a relative path.
-/
def comparedParts (path : String) : Bool × List String :=
  let absolute := path.startsWith "/"
  let names := (pathParts path).filter fun part => !part.isEmpty
  let front := if !absolute && names.head? == some "." then ["."] else []
  (absolute, front ++ names.filter fun name => name ≠ ".")

end SceneScript
