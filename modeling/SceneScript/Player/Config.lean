import SceneScript.Json.Parser
import SceneScript.Player.Path
import SceneScript.Text.Blank
import SceneScript.Text.Utf8

/-!
# Settings of the player

Settings come from a JSON document. An object names the settings it gives; members that are no
setting are ignored, and a setting must not be given twice. An array gives settings in a fixed
order. What is not given has its initial value, and a document that cannot be read gives the initial
settings.
-/

namespace SceneScript

open SceneScript.Text

set_option autoImplicit false

structure Config where
  scriptPath : String
  startScene : String
  showStyleChanges : Bool
  clearMarker : String
  choicePrompt : String
deriving DecidableEq

inductive ConfigError where
  | noScript
  | noScene
  | blankInScene (scene : String)
deriving DecidableEq

def ConfigError.message : ConfigError → String
  | noScript => "配置验证失败: 必须配置 script_path（脚本路径）"
  | noScene => "配置验证失败: 必须配置 start_scene（入口场景）"
  | blankInScene scene => "配置验证失败: 入口场景不能包含空白: '" ++ scene ++ "'"

namespace Config

def initial : Config where
  scriptPath := "scenes.csl"
  startScene := "CH0"
  showStyleChanges := false
  clearMarker := "────────────────"
  choicePrompt := "> "

/-- Whether settings are the initial ones; different texts may be the same path. -/
def isInitial (config : Config) : Bool :=
  { config with scriptPath := initial.scriptPath } = initial &&
    comparedParts config.scriptPath == comparedParts initial.scriptPath

def keys : List String :=
  ["script_path", "start_scene", "show_style_changes", "clear_marker", "choice_prompt"]

/-- A setting that may be missing, with its value if it is. -/
def setting {α : Type} (read : Json → Option α) (default : α) : Option Json → Option α
  | none => some default
  | some value => read value

def ofSettings? (script scene style marker prompt : Option Json) : Option Config := do
  let scriptPath ← setting Json.str? initial.scriptPath script
  let startScene ← setting Json.str? initial.startScene scene
  let showStyleChanges ← setting Json.bool? initial.showStyleChanges style
  let clearMarker ← setting Json.str? initial.clearMarker marker
  let choicePrompt ← setting Json.str? initial.choicePrompt prompt
  return ⟨scriptPath, startScene, showStyleChanges, clearMarker, choicePrompt⟩

def ofJson? : Json → Option Config
  | .obj members =>
    if keys.all fun key => members.countP (fun member => member.1 = key) ≤ 1 then
      ofSettings? (members.lookup "script_path") (members.lookup "start_scene")
        (members.lookup "show_style_changes") (members.lookup "clear_marker")
        (members.lookup "choice_prompt")
    else
      none
  | .arr items =>
    if items.length ≤ keys.length then
      ofSettings? items[0]? items[1]? items[2]? items[3]? items[4]?
    else
      none
  | _ => none

def toJson (config : Config) : Json :=
  .obj [("script_path", .str config.scriptPath), ("start_scene", .str config.startScene),
    ("show_style_changes", .bool config.showStyleChanges),
    ("clear_marker", .str config.clearMarker), ("choice_prompt", .str config.choicePrompt)]

def ofBytes? (content : List UInt8) : Option Config :=
  (decode? content).bind fun text => (Json.parse? text).bind ofJson?

def load (content : Option (List UInt8)) : Config :=
  (content.bind ofBytes?).getD initial

/-- There has to be a script, and the entry scene has to be one word. -/
def validate (config : Config) : Except ConfigError Unit :=
  if config.scriptPath.isEmpty then .error .noScript
  else if (trim config.startScene.toList).isEmpty then .error .noScene
  else if 1 < (words config.startScene.toList).length then
    .error (.blankInScene config.startScene)
  else .ok ()

end Config

end SceneScript
