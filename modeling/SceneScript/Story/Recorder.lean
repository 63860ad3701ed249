import SceneScript.Story.Host

/-!
# A host that records

It logs every call and answers menus from a list that was fixed before. A missing answer, like one
that gives up, ends playing.
-/

namespace SceneScript

set_option autoImplicit false

inductive Call where
  | show (display : Display)
  | menu (labels : List String)
deriving DecidableEq

structure Recorder where
  log : Array Call
  answers : List (Option Nat)
deriving DecidableEq

namespace Recorder

def new (answers : List (Option Nat)) : Recorder where
  log := #[]
  answers := answers

def render (display : Display) (recorder : Recorder) : Recorder :=
  { recorder with log := recorder.log.push (.show display) }

def ask (labels : List String) (recorder : Recorder) : Option Nat × Recorder :=
  let log := recorder.log.push (.menu labels)
  match recorder.answers with
  | [] => (none, { recorder with log := log })
  | answer :: rest => (answer, ⟨log, rest⟩)

def host (resolve : String → String) : Host Recorder where
  resolve := resolve
  render := render
  ask := ask
  patience recorder := recorder.answers.length
  render_le _ _ := Nat.le_refl _
  ask_le labels recorder := by
    obtain ⟨log, answers⟩ := recorder
    cases answers <;> simp [ask]
  ask_lt labels recorder := by
    obtain ⟨log, answers⟩ := recorder
    cases answers <;> simp [ask]

end Recorder

end SceneScript
