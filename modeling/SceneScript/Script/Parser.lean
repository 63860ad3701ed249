import SceneScript.Script.Nest
import SceneScript.Script.Program

/-!
# Reading scripts

A script is a sequence of sections, each a header line and the lines up to the next header, so a
block never reaches beyond its scene. Lines before the first header are skipped with a warning. The
first error ends reading and keeps the warnings that were recorded before it.
-/

namespace SceneScript

set_option autoImplicit false

/-- A header line and the lines up to the next header. -/
structure Section where
  header : Line
  body : List Line
deriving DecidableEq

/-- The lines before the first header, and the sections. -/
def Section.split (lines : List Line) : List Line × List Section :=
  lines.foldr
    (fun line (before, sections) =>
      if line.isHeader then ([], ⟨line, before⟩ :: sections) else (line :: before, sections))
    ([], [])

/-- What reading gives: the warnings, and a value or the error that ended it. -/
structure Outcome (α : Type) where
  warnings : List Warning
  result : Except ParseError α

def Section.read (part : Section) : Outcome Scene :=
  match part.header.argument? with
  | none => ⟨[], part.header.fail (.missingArgument .scene .sceneId)⟩
  | some id =>
    let (warnings, body) := Nest.start.readLines part.body
    ⟨warnings, body.map fun body => ⟨String.ofList id, part.header.number, body⟩⟩

namespace Program

def addSections (program : Program) : List Section → Outcome Program
  | [] => ⟨[], .ok program⟩
  | part :: rest =>
    let outcome := part.read
    match outcome.result with
    | .error error => ⟨outcome.warnings, .error error⟩
    | .ok scene =>
      let (extended, replaced) := program.insert scene
      let duplicate :=
        if replaced then [⟨part.header.number, .duplicate scene.id⟩] else []
      let others := extended.addSections rest
      ⟨outcome.warnings ++ duplicate ++ others.warnings, others.result⟩

def ofLines (lines : List Line) : Outcome Program :=
  let (before, sections) := Section.split lines
  let outside := before.map fun line => line.warn (.outsideScene (String.ofList line.text))
  let outcome := empty.addSections sections
  ⟨outside ++ outcome.warnings, outcome.result⟩

def parse (text : String) : Outcome Program :=
  ofLines (Line.scan text.toList)

end Program

end SceneScript
