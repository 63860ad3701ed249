import SceneScript.Json.Basic
import SceneScript.Script.Program

/-!
# Scripts as JSON

Every value is written in one form. Reading also takes a scene or a program as the array of its
fields, and a program in which an id is repeated; the later scene then takes the place of the earlier
one. What stands behind the tag of a statement is always an object.
-/

namespace SceneScript

set_option autoImplicit false

namespace Condition

def toJson : Condition → Json
  | conj left right => .obj [("And", .arr [left.toJson, right.toJson])]
  | disj left right => .obj [("Or", .arr [left.toJson, right.toJson])]
  | neg inner => .obj [("Not", inner.toJson)]
  | has name => .obj [("Has", .str name)]
  | ident name => .obj [("Ident", .str name)]
  | literal true => .str "True"
  | literal false => .str "False"

def ofJson? (value : Json) : Option Condition :=
  match _ : value.tagged? with
  | none => none
  | some (tag, none) =>
    if tag = "True" then some (literal true)
    else if tag = "False" then some (literal false)
    else none
  | some (tag, some content) =>
    if tag = "And" then
      match content with
      | .arr [left, right] => do
        let left ← ofJson? left
        let right ← ofJson? right
        return conj left right
      | _ => none
    else if tag = "Or" then
      match content with
      | .arr [left, right] => do
        let left ← ofJson? left
        let right ← ofJson? right
        return disj left right
      | _ => none
    else if tag = "Not" then (ofJson? content).map neg
    else if tag = "Has" then content.str?.map has
    else if tag = "Ident" then content.str?.map ident
    else if tag = "True" then content.null?.map fun _ => literal true
    else if tag = "False" then content.null?.map fun _ => literal false
    else none
termination_by sizeOf value
decreasing_by
  · exact Json.sizeOf_item_lt ‹value.tagged? = _› (by simp)
  · exact Json.sizeOf_item_lt ‹value.tagged? = _› (by simp)
  · exact Json.sizeOf_item_lt ‹value.tagged? = _› (by simp)
  · exact Json.sizeOf_item_lt ‹value.tagged? = _› (by simp)
  · exact Json.sizeOf_content_lt ‹value.tagged? = _›

end Condition

namespace StyleChange

def toJson : StyleChange → Json
  | background color => .obj [("Background", .str color)]
  | foreground color => .obj [("Foreground", .str color)]
  | font family => .obj [("Font", .str family)]
  | fontSize size => .obj [("FontSize", .int size.toInt)]

def ofJson? (value : Json) : Option StyleChange :=
  match value.tagged? with
  | some ("Background", some content) => content.str?.map background
  | some ("Foreground", some content) => content.str?.map foreground
  | some ("Font", some content) => content.str?.map font
  | some ("FontSize", some content) => content.int64?.map fontSize
  | _ => none

end StyleChange

namespace Action

def toJson : Action → Json
  | print text => .record "Print" [("text", .str text)]
  | image source => .record "Image" [("source", .str source)]
  | setFlag name => .record "SetFlag" [("id", .str name)]
  | unsetFlag name => .record "UnsetFlag" [("id", .str name)]
  | addItem name => .record "AddItem" [("id", .str name)]
  | removeItem name => .record "RemoveItem" [("id", .str name)]
  | style change => .obj [("StyleChange", change.toJson)]

def ofTag? (tag : String) (content : Json) : Option Action :=
  match tag with
  | "Print" => (Json.namedText? "text" content).map print
  | "Image" => (Json.namedText? "source" content).map image
  | "SetFlag" => (Json.namedText? "id" content).map setFlag
  | "UnsetFlag" => (Json.namedText? "id" content).map unsetFlag
  | "AddItem" => (Json.namedText? "id" content).map addItem
  | "RemoveItem" => (Json.namedText? "id" content).map removeItem
  | "StyleChange" => (StyleChange.ofJson? content).map style
  | _ => none

end Action

mutual

def Statement.toJson : Statement → Json
  | .act action => action.toJson
  | .go target line => .record "Goto" [("target", .str target), ("line", .nat line)]
  | .choice label body =>
    .record "Choice" [("label", .str label), ("body", .arr (Block.toJsons body))]
  | .branch condition thenBody elseBody =>
    .record "If"
      [("condition", condition.toJson), ("then_body", .arr (Block.toJsons thenBody)),
        ("else_body", .arr (Block.toJsons elseBody))]

def Block.toJsons : List Statement → List Json
  | [] => []
  | statement :: rest => statement.toJson :: Block.toJsons rest

end

def Block.toJson (block : Block) : Json :=
  .arr (Block.toJsons block)

mutual

def Statement.ofJson? (value : Json) : Option Statement :=
  match _ : value.tagged? with
  | some (tag, some content) =>
    if tag = "Goto" then
      match content.namedFields? ["target", "line"] with
      | some [target, line] => do
        let target ← target.str?
        let line ← line.word?
        return .go target line
      | _ => none
    else if tag = "Choice" then
      match _ : content.namedFields? ["label", "body"] with
      | some [label, .arr items] => do
        let label ← label.str?
        let body ← Block.ofJsons? items
        return .choice label body
      | _ => none
    else if tag = "If" then
      match _ : content.namedFields? ["condition", "then_body", "else_body"] with
      | some [condition, .arr thenItems, .arr elseItems] => do
        let condition ← Condition.ofJson? condition
        let thenBody ← Block.ofJsons? thenItems
        let elseBody ← Block.ofJsons? elseItems
        return .branch condition thenBody elseBody
      | _ => none
    else
      (Action.ofTag? tag content).map .act
  | _ => none
termination_by sizeOf value
decreasing_by
  · have outer := Json.sizeOf_content_lt ‹value.tagged? = _›
    have inner := Json.sizeOf_field_lt ‹content.namedFields? _ = _› (show Json.arr items ∈ _ by simp)
    simp only [Json.arr.sizeOf_spec] at inner
    omega
  · have outer := Json.sizeOf_content_lt ‹value.tagged? = _›
    have inner := Json.sizeOf_field_lt ‹content.namedFields? _ = _› (show Json.arr thenItems ∈ _ by simp)
    simp only [Json.arr.sizeOf_spec] at inner
    omega
  · have outer := Json.sizeOf_content_lt ‹value.tagged? = _›
    have inner := Json.sizeOf_field_lt ‹content.namedFields? _ = _› (show Json.arr elseItems ∈ _ by simp)
    simp only [Json.arr.sizeOf_spec] at inner
    omega

def Block.ofJsons? (items : List Json) : Option (List Statement) :=
  match items with
  | [] => some []
  | item :: rest => do
    let statement ← Statement.ofJson? item
    let others ← Block.ofJsons? rest
    return statement :: others
termination_by sizeOf items

end

def Block.ofJson? (value : Json) : Option Block :=
  value.arr?.bind Block.ofJsons?

namespace Scene

def toJson (scene : Scene) : Json :=
  .obj [("id", .str scene.id), ("line", .nat scene.line), ("body", Block.toJson scene.body)]

def ofJson? (value : Json) : Option Scene :=
  match value.fields? ["id", "line", "body"] with
  | some [id, line, body] => do
    let id ← id.str?
    let line ← line.word?
    let body ← Block.ofJson? body
    return ⟨id, line, body⟩
  | _ => none

end Scene

namespace Program

def toJson (program : Program) : Json :=
  .obj [("scenes", .arr (program.scenes.toList.map Scene.toJson))]

def ofJson? (value : Json) : Option Program :=
  match value.fields? ["scenes"] with
  | some [.arr items] => (items.mapM Scene.ofJson?).map ofScenes
  | _ => none

end Program

end SceneScript
