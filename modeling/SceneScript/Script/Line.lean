import SceneScript.Text.Lines
import SceneScript.Text.Utf8

/-!
# Source lines

A comment runs from a semicolon to the end of its line, unless the semicolon is inside quotes or
behind a backslash. `scan` numbers the lines of a text from one, takes comments and outer blanks
away and keeps the lines that have something left.
-/

namespace SceneScript

open SceneScript.Text

set_option autoImplicit false

/-- Where a scan along a line stands: inside quotes or not, and behind a backslash or not. -/
structure QuoteMode where
  quoted : Bool
  escaped : Bool
deriving DecidableEq

namespace QuoteMode

def start : QuoteMode where
  quoted := false
  escaped := false

def next (mode : QuoteMode) (c : Char) : QuoteMode :=
  if mode.escaped then { mode with escaped := false }
  else if c = '\\' then { mode with escaped := true }
  else if c = '"' then { mode with quoted := !mode.quoted }
  else mode

/-- Whether a semicolon at this place starts a comment. -/
def isOpen (mode : QuoteMode) : Bool :=
  !mode.quoted && !mode.escaped

end QuoteMode

/-- The part of a line before its comment, from a given scan mode on. -/
def stripFrom (mode : QuoteMode) : List Char → List Char
  | [] => []
  | c :: rest =>
    if c = ';' && mode.isOpen then [] else c :: stripFrom (mode.next c) rest

def stripComment (line : List Char) : List Char :=
  stripFrom .start line

/-- A line with its number, without comment and outer blanks. -/
structure Line where
  number : Nat
  text : List Char
deriving DecidableEq

namespace Line

/-- A raw line, unless it has nothing but blanks and a comment. -/
def ofRaw? (raw : List Char) (number : Nat) : Option Line :=
  let text := trim (stripComment raw)
  if text.isEmpty then none else some ⟨number, text⟩

def scan (text : List Char) : List Line :=
  ((lines text).zipIdx 1).filterMap fun (raw, number) => ofRaw? raw number

def words (line : Line) : List (List Char) :=
  Text.words line.text

def argument? (line : Line) : Option (List Char) :=
  line.words[1]?

def startsWith (line : Line) (keyword : String) : Bool :=
  startsWithKeyword line.text keyword.toList

/-- A header starts with `scene`, in any case, as a whole word. -/
def isHeader (line : Line) : Bool :=
  line.startsWith "scene" &&
    match dropBytes? 5 line.text with
    | some rest => !rest.head?.any isWordChar
    | none => false

end Line

end SceneScript
