import SceneScript.Codec.Script
import SceneScript.Story.Machine
import SceneScript.Story.Session

/-!
# Stories as JSON

The values that pass between a story and what plays it, and the state of a story. Sets are written
as ascending arrays; reading drops repeated names.
-/

namespace SceneScript

set_option autoImplicit false

namespace NameSet

def toJson (set : NameSet) : Json :=
  .strings set.names

def ofJson? (value : Json) : Option NameSet :=
  value.strings?.map ofList

end NameSet

namespace GameState

def toJson (game : GameState) : Json :=
  .obj [("flags", game.flags.toJson), ("inventory", game.inventory.toJson)]

def ofJson? (value : Json) : Option GameState :=
  match value.fields? ["flags", "inventory"] with
  | some [flags, inventory] => do
    let flags ← NameSet.ofJson? flags
    let inventory ← NameSet.ofJson? inventory
    return ⟨flags, inventory⟩
  | _ => none

end GameState

namespace Style

def toJson (style : Style) : Json :=
  .obj [("background", .str style.background), ("foreground", .str style.foreground),
    ("font", .str style.font), ("font_size", .int style.fontSize.toInt)]

def ofJson? (value : Json) : Option Style :=
  match value.fields? ["background", "foreground", "font", "font_size"] with
  | some [background, foreground, font, fontSize] => do
    let background ← background.str?
    let foreground ← foreground.str?
    let font ← font.str?
    let fontSize ← fontSize.int64?
    return ⟨background, foreground, font, fontSize⟩
  | _ => none

end Style

namespace Waiting

def toJson : Waiting → Json
  | nothing => .str "None"
  | choice count => .record "WaitForChoice" [("choice_count", .nat count)]

def ofJson? (value : Json) : Option Waiting :=
  match value.tagged? with
  | some ("None", none) => some nothing
  | some ("None", some .null) => some nothing
  | some ("WaitForChoice", some content) =>
    match content.namedFields? ["choice_count"] with
    | some [count] => count.word?.map choice
    | _ => none
  | _ => none

end Waiting

namespace State

def toJson (state : State) : Json :=
  .obj [("game", state.game.toJson), ("style", state.style.toJson),
    ("current_scene", .option .str state.scene), ("waiting", state.waiting.toJson)]

def sceneOfJson? : Json → Option (Option String)
  | .null => some none
  | .str id => some (some id)
  | _ => none

/-- The fields of a state. In an object the scene may be left out. -/
def fieldsOfJson? : Json → Option (List Json)
  | .obj members =>
    Json.fields? ["game", "style", "current_scene", "waiting"]
      (.obj (members ++ [("current_scene", .null)]))
  | value => value.fields? ["game", "style", "current_scene", "waiting"]

def ofJson? (value : Json) : Option State :=
  match fieldsOfJson? value with
  | some [game, style, scene, waiting] => do
    let game ← GameState.ofJson? game
    let style ← Style.ofJson? style
    let scene ← sceneOfJson? scene
    let waiting ← Waiting.ofJson? waiting
    return ⟨game, style, scene, waiting⟩
  | _ => none

end State

namespace MenuItem

def toJson (item : MenuItem) : Json :=
  .obj [("label", .str item.label), ("body", Block.toJson item.body)]

end MenuItem

namespace Command

def labelToJson (label : String) : Json :=
  .obj [("text", .str label)]

def labelOfJson? (value : Json) : Option String :=
  match value.fields? ["text"] with
  | some [text] => text.str?
  | _ => none

def toJson : Command → Json
  | showText content => .record "ShowText" [("content", .str content)]
  | showImage path => .record "ShowImage" [("path", .str path)]
  | clearTransient => .str "ClearTransient"
  | applyStyle style => .record "ApplyStyle" [("style", style.toJson)]
  | presentChoices labels => .record "PresentChoices" [("choices", .arr (labels.map labelToJson))]

def ofJson? (value : Json) : Option Command :=
  match value.tagged? with
  | some ("ShowText", some content) => (Json.namedText? "content" content).map showText
  | some ("ShowImage", some content) => (Json.namedText? "path" content).map showImage
  | some ("ClearTransient", none) => some clearTransient
  | some ("ClearTransient", some .null) => some clearTransient
  | some ("ApplyStyle", some content) =>
    match content.namedFields? ["style"] with
    | some [style] => (Style.ofJson? style).map applyStyle
    | _ => none
  | some ("PresentChoices", some content) =>
    match content.namedFields? ["choices"] with
    | some [.arr items] => (items.mapM labelOfJson?).map presentChoices
    | _ => none
  | _ => none

end Command

namespace Input

def toJson : Input → Json
  | choose index => .record "ChoiceSelected" [("index", .nat index)]

def ofJson? (value : Json) : Option Input :=
  match value.tagged? with
  | some ("ChoiceSelected", some content) =>
    match content.namedFields? ["index"] with
    | some [index] => index.word?.map choose
    | _ => none
  | _ => none

end Input

end SceneScript
