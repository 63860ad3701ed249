import SceneScript.Script.Reading

/-!
# Nested blocks

Reading keeps the blocks that are open at a line, innermost first. A line that starts with `end`
closes the innermost one, a line that starts with `else` turns a then block into an else block, and
the end of the scene closes whatever is still open.
-/

namespace SceneScript

set_option autoImplicit false

/-- What an open block will be part of. -/
inductive Opening where
  | choice (label : String)
  | thenPart (condition : Condition)
  | elsePart (condition : Condition) (thenBody : Block)
deriving DecidableEq

namespace Opening

def close : Opening → Block → Statement
  | choice label, body => .choice label body
  | thenPart condition, body => .branch condition body []
  | elsePart condition thenBody, body => .branch condition thenBody body

def keyword : Opening → Keyword
  | choice _ => .choice
  | thenPart _ => .branch
  | elsePart _ _ => .branch

end Opening

/-- An open block, the line that opened it, and the statements before it, last one first. -/
structure OpenBlock where
  opening : Opening
  line : Nat
  before : List Statement
deriving DecidableEq

/-- The statements of the innermost block so far, last one first, and the open blocks. -/
structure Nest where
  recent : List Statement
  blocks : List OpenBlock
deriving DecidableEq

namespace Nest

def start : Nest where
  recent := []
  blocks := []

def push (nest : Nest) (statement : Statement) : Nest :=
  { nest with recent := statement :: nest.recent }

def enter (nest : Nest) (opening : Opening) (line : Nat) : Nest where
  recent := []
  blocks := ⟨opening, line, nest.recent⟩ :: nest.blocks

/-- The nest behind a line that closes the innermost block or starts its else part. -/
def close? (nest : Nest) (line : Line) : Option Nest :=
  match nest.blocks with
  | [] => none
  | block :: outer =>
    let closed : Nest := ⟨block.opening.close nest.recent.reverse :: block.before, outer⟩
    match block.opening with
    | .thenPart condition =>
      if line.startsWith "else" then
        some ⟨[], { block with opening := .elsePart condition nest.recent.reverse } :: outer⟩
      else if line.startsWith "end" then some closed
      else none
    | .choice _ | .elsePart _ _ => if line.startsWith "end" then some closed else none

def add (nest : Nest) (line : Line) : Statement.Head → Nest
  | .act action => nest.push (.act action)
  | .go target number => nest.push (.go target number)
  | .choice label => nest.enter (.choice label) line.number
  | .branch condition => nest.enter (.thenPart condition) line.number

def step (nest : Nest) (line : Line) : Except ParseError (Nest × List Warning) :=
  match nest.close? line with
  | some closed => .ok (closed, [])
  | none =>
    line.read.map fun reading =>
      (reading.head.elim nest (nest.add line), reading.warnings)

/-- Closes what is open at the end of a scene, from the inside to the outside. -/
def finish (recent : List Statement) : List OpenBlock → List Warning × Block
  | [] => ([], recent.reverse)
  | block :: outer =>
    let (warnings, body) := finish (block.opening.close recent.reverse :: block.before) outer
    (⟨block.line, .missingEnd block.opening.keyword⟩ :: warnings, body)

/-- Reads the lines of a scene; the warnings are those up to the end or to the first error. -/
def readLines (nest : Nest) : List Line → List Warning × Except ParseError Block
  | [] =>
    let (warnings, body) := finish nest.recent nest.blocks
    (warnings, .ok body)
  | line :: rest =>
    match nest.step line with
    | .error error => ([], .error error)
    | .ok (next, warnings) =>
      let (others, body) := readLines next rest
      (warnings ++ others, body)

end Nest

end SceneScript
