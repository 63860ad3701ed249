import SceneScript.Script.Parser
import SceneScript.Story.Session

/-!
# From a script to a running story
-/

namespace SceneScript

set_option autoImplicit false

inductive LoadError where
  | script (error : ParseError)
  | story (error : StoryError)
deriving DecidableEq

def LoadError.message : LoadError → String
  | script error => "解析错误: " ++ error.message
  | story error => "运行时错误: " ++ error.message

def Session.load (text : String) (entry : String) : Except LoadError (Session × Batch) :=
  match (Program.parse text).result with
  | .error error => .error (.script error)
  | .ok program =>
    match (new program).start entry with
    | (.error error, _) => .error (.story error)
    | (.ok batch, session) => .ok (session, batch)

end SceneScript
