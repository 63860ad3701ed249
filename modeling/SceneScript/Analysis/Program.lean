import SceneScript.Analysis.Diagnostic
import SceneScript.Script.Program
import SceneScript.State.NameSet

/-!
# Checking programs

Without running a program the check finds: an entry scene or a target of a `go` that does not exist,
statements behind a `go` in the same block, which never run, and scenes that are neither the entry
nor the target of any `go`.
-/

namespace SceneScript

set_option autoImplicit false

inductive Finding where
  | missingEntry (entry : String) (defined : List String)
  | deadStatements (target : String) (count : Nat)
  | missingTarget (target : String)
  | unreferenced
deriving DecidableEq

namespace Finding

def level : Finding → Level
  | missingEntry _ _ => .error
  | deadStatements _ _ => .warn
  | missingTarget _ => .error
  | unreferenced => .info

def message : Finding → String
  | missingEntry entry _ => "入口场景 '" ++ entry ++ "' 不存在"
  | deadStatements target _ => "'go " ++ target ++ "' 之后的语句不可达"
  | missingTarget target => "未定义的跳转目标: " ++ target
  | unreferenced => "场景从未被 go 引用"

def detail : Finding → Option String
  | missingEntry _ defined => some ("已定义的场景: " ++ ", ".intercalate defined)
  | deadStatements _ count => some (toString count ++ " 条语句永远不会执行")
  | missingTarget target => some ("go 引用了不存在的场景 '" ++ target ++ "'")
  | unreferenced => none

def diagnostic (finding : Finding) (scene : String) (line : Option Nat) : Diagnostic where
  level := finding.level
  scene := scene
  line := line
  message := finding.message
  detail := finding.detail

end Finding

/-- A `go` on a walk, with the number of statements behind it in its block. -/
structure Jump where
  target : String
  line : Nat
  behind : Nat
deriving DecidableEq

def Visit.jump? (visit : Visit) : Option Jump :=
  match visit.statement with
  | .go target line => some ⟨target, line, visit.behind.length⟩
  | _ => none

def Visit.image? (visit : Visit) : Option String :=
  match visit.statement with
  | .act (.image source) => some source
  | _ => none

namespace Scene

/-- Every `go` of a scene at any depth, each before those inside later statements. -/
def jumps (scene : Scene) : List Jump :=
  (Block.visits scene.body).filterMap Visit.jump?

def images (scene : Scene) : List String :=
  (Block.visits scene.body).filterMap Visit.image?

end Scene

namespace Program

def jumpTargets (program : Program) : NameSet :=
  .ofList (program.scenes.toList.flatMap fun scene => scene.jumps.map Jump.target)

/-- All images with the scene that shows them, in order. -/
def imageReferences (program : Program) : List (String × String) :=
  program.scenes.toList.flatMap fun scene => scene.images.map fun path => (scene.id, path)

def checkEntry (program : Program) (entry : String) : Report :=
  if program.contains entry then []
  else [(Finding.missingEntry entry program.ids).diagnostic entry none]

def checkDead (scene : Scene) (jump : Jump) : Option Diagnostic :=
  if jump.behind = 0 then none
  else some ((Finding.deadStatements jump.target jump.behind).diagnostic scene.id
    (knownLine jump.line))

def checkTarget (program : Program) (scene : Scene) (jump : Jump) : Option Diagnostic :=
  if program.contains jump.target then none
  else some ((Finding.missingTarget jump.target).diagnostic scene.id (knownLine jump.line))

def checkScene (program : Program) (scene : Scene) : Report :=
  scene.jumps.filterMap (checkDead scene) ++ scene.jumps.filterMap (program.checkTarget scene)

def checkReferenced (targets : NameSet) (entry : String) (scene : Scene) : Option Diagnostic :=
  if scene.id = entry || targets.contains scene.id then none
  else some (Finding.unreferenced.diagnostic scene.id (knownLine scene.line))

/-- Everything that the check finds, for a story that starts at an entry scene. -/
def check (program : Program) (entry : String) : Report :=
  let scenes := program.scenes.toList
  program.checkEntry entry ++ scenes.flatMap program.checkScene
    ++ scenes.filterMap (checkReferenced program.jumpTargets entry)

end Program

end SceneScript
