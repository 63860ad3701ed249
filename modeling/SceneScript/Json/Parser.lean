import SceneScript.Json.Token

/-!
# Reading JSON text

Reading keeps the arrays and objects that are open, innermost first, and what may come next. It
accepts exactly one value with nothing but blanks around it.
-/

namespace SceneScript.Json

set_option autoImplicit false

/-- An open array or object with what it has so far, last one first. -/
inductive Level where
  | array (items : List Json)
  | object (members : List (String × Json)) (paired : Bool) (key : Option String)

inductive Expect where
  | value
  | valueOrClose
  | key
  | keyOrClose
  | colon
  | commaOrClose
  | nothing (result : Json)

structure Reading where
  levels : List Level
  expect : Expect

namespace Reading

def start : Reading where
  levels := []
  expect := .value

def complete (value : Json) : List Level → Reading
  | [] => ⟨[], .nothing value⟩
  | .array items :: outer => ⟨.array (value :: items) :: outer, .commaOrClose⟩
  | .object members paired (some key) :: outer =>
    ⟨.object ((key, value) :: members) paired none :: outer, .commaOrClose⟩
  | .object members _ none :: outer => ⟨.object members false none :: outer, .commaOrClose⟩

def closeArray? : List Level → Option Reading
  | .array items :: outer => some (complete (.arr items.reverse) outer)
  | _ => none

def closeObject? : List Level → Option Reading
  | .object members paired _ :: outer =>
    some (complete (if paired then .obj members.reverse else .unpaired) outer)
  | _ => none

def comma? : List Level → Option Reading
  | .array items :: outer => some ⟨.array items :: outer, .value⟩
  | .object members paired key :: outer => some ⟨.object members paired key :: outer, .key⟩
  | [] => none

def key? (name : Option String) : List Level → Option Reading
  | .object members paired _ :: outer => some ⟨.object members paired name :: outer, .colon⟩
  | _ => none

def value? (levels : List Level) : Token → Option Reading
  | .openArray => some ⟨.array [] :: levels, .valueOrClose⟩
  | .openObject => some ⟨.object [] true none :: levels, .keyOrClose⟩
  | .text (some text) => some (complete (.str text) levels)
  | .text none => some (complete .unpaired levels)
  | .atom value => some (complete value levels)
  | _ => none

def step (reading : Reading) (token : Token) : Option Reading :=
  match reading.expect, token with
  | .valueOrClose, .closeArray => closeArray? reading.levels
  | .value, token | .valueOrClose, token => value? reading.levels token
  | .keyOrClose, .closeObject => closeObject? reading.levels
  | .key, .text name | .keyOrClose, .text name => key? name reading.levels
  | .colon, .colon => some ⟨reading.levels, .value⟩
  | .commaOrClose, .comma => comma? reading.levels
  | .commaOrClose, .closeArray => closeArray? reading.levels
  | .commaOrClose, .closeObject => closeObject? reading.levels
  | _, _ => none

def result? (reading : Reading) : Option Json :=
  match reading.expect with
  | .nothing result => some result
  | _ => none

end Reading

def parse? (text : List Char) : Option Json :=
  (tokens? text).bind fun tokens => (tokens.foldlM Reading.step Reading.start).bind Reading.result?

end SceneScript.Json
