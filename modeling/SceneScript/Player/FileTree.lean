import SceneScript.Player.Path
import SceneScript.Text.Utf8

/-!
# Files and directories

A file tree lists files and directories with their places. The directories on the way to an entry
are there without being listed, and so are the root, the working directory and the directories above
it.
-/

namespace SceneScript

open SceneScript.Text

set_option autoImplicit false

/-- Where names start: at the root, or so many levels above the working directory. -/
inductive Place.Base where
  | root
  | above (levels : Nat)
deriving DecidableEq

structure Place where
  base : Place.Base
  names : List String
deriving DecidableEq

namespace Place

/-- The root has no directory above it. -/
def parent (place : Place) : Place :=
  match place.names, place.base with
  | [], .root => place
  | [], .above levels => ⟨.above (levels + 1), []⟩
  | names, base => ⟨base, names.dropLast⟩

def next (place : Place) (part : String) : Place :=
  if part = "" ∨ part = "." then place
  else if part = ".." then place.parent
  else { place with names := place.names ++ [part] }

def start (path : String) : Place where
  base := if path.startsWith "/" then .root else .above 0
  names := []

/-- Where a path leads if all directories on its way are there. -/
def ofPath (path : String) : Place :=
  (pathParts path).foldl next (start path)

def isBelow (place directory : Place) : Bool :=
  place.base = directory.base && directory.names.isPrefixOf place.names

end Place

inductive FileTree.Entry where
  | file (content : List UInt8)
  | directory
deriving DecidableEq

structure FileTree where
  entries : List (Place × FileTree.Entry)
deriving DecidableEq

inductive ReadError where
  | notFound
  | notDirectory
  | isDirectory
  | tooLong
  | nulInPath
  | notUtf8
deriving DecidableEq

def ReadError.message : ReadError → String
  | notFound => "No such file or directory (os error 2)"
  | notDirectory => "Not a directory (os error 20)"
  | isDirectory => "Is a directory (os error 21)"
  | tooLong => "File name too long (os error 36)"
  | nulInPath => "file name contained an unexpected NUL byte"
  | notUtf8 => "stream did not contain valid UTF-8"

namespace FileTree

/-- Builds a tree from paths; a path without content is a directory. -/
def ofFiles (files : List (String × Option (List UInt8))) : FileTree where
  entries := files.map fun (path, content) => (.ofPath path, content.elim .directory .file)

def entry? (tree : FileTree) (place : Place) : Option Entry :=
  match tree.entries.lookup place with
  | some entry => some entry
  | none =>
    if place.names.isEmpty || tree.entries.any fun (other, _) => other.isBelow place then
      some .directory
    else
      none

def nameLimit : Nat := 255

def pathLimit : Nat := 4095

/-- Follows the parts of a path; only a directory can be followed further. -/
def follow (tree : FileTree) (place : Place) : List String → Except ReadError (Place × Entry)
  | [] =>
    match tree.entry? place with
    | some entry => .ok (place, entry)
    | none => .error .notFound
  | part :: rest =>
    match tree.entry? place with
    | none => .error .notFound
    | some (.file _) => .error .notDirectory
    | some .directory =>
      if nameLimit < byteSize part.toList then .error .tooLong
      else tree.follow (place.next part) rest

/-- Finds what a path leads to. -/
def find (tree : FileTree) (path : String) : Except ReadError (Place × Entry) :=
  if path.isEmpty then .error .notFound
  else if path.toList.contains '\x00' then .error .nulInPath
  else if pathLimit < byteSize path.toList then .error .tooLong
  else tree.follow (.start path) (pathParts path)

def has (tree : FileTree) (path : String) : Bool :=
  match tree.find path with
  | .ok _ => true
  | .error _ => false

def read (tree : FileTree) (path : String) : Except ReadError (List UInt8) :=
  match tree.find path with
  | .error error => .error error
  | .ok (_, .directory) => .error .isDirectory
  | .ok (_, .file content) => .ok content

def readText (tree : FileTree) (path : String) : Except ReadError String :=
  match tree.read path with
  | .error error => .error error
  | .ok content =>
    match decode? content with
    | some text => .ok (String.ofList text)
    | none => .error .notUtf8

/-- The names that lead on from a directory to a place, stop by stop. -/
def stops (directory place : Place) : List (List String) :=
  let names := place.names.drop directory.names.length
  (List.range names.length).map fun count => names.take (count + 1)

/--
Everything below a directory with the names that lead there: the entries of a directory by name, and
each entry before those inside it.
-/
def below (tree : FileTree) (directory : Place) : List (List String × Entry) :=
  let found := tree.entries.flatMap fun (place, _) =>
    if place.isBelow directory then stops directory place else []
  (found.eraseDups.mergeSort fun a b => !(b < a)).filterMap fun names =>
    (tree.entry? { directory with names := directory.names ++ names }).map (names, ·)

end FileTree

end SceneScript
