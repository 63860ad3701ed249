import SceneScript.Condition.Parser
import SceneScript.Script.Error
import SceneScript.Script.Line
import SceneScript.Script.Statement
import SceneScript.Text.Numeral
import SceneScript.Text.Quoted

/-!
# What a line says by itself

A line inside a scene is read without looking at other lines. It gives the head of a statement, or
nothing and a warning. Only its own text decides whether it fails.
-/

namespace SceneScript

open SceneScript.Text

set_option autoImplicit false

/-- The keyword that a word spells, in any case. -/
def Keyword.ofWord? (word : List Char) : Option Keyword :=
  inScene.find? fun keyword => keyword.text.toList == lower word

/-- Reads a condition that stands in a line; an error carries the number of the line. -/
def Condition.parseAt (number : Nat) (text : List Char) : Except ParseError Condition :=
  (Condition.parse text).mapError fun fault => ⟨number, .condition fault⟩

namespace Line

def fail {α : Type} (line : Line) (cause : ParseError.Cause) : Except ParseError α :=
  .error ⟨line.number, cause⟩

def warn (line : Line) (notice : Warning.Notice) : Warning :=
  ⟨line.number, notice⟩

/-- The literal whose opening quote is at a byte offset of the line, and the offset behind it. -/
def literalAt (line : Line) (start : Nat) : Except ParseError (String × Nat) :=
  match Quoted.readAt? line.text start with
  | some (value, stop) => .ok (String.ofList value, stop)
  | none => line.fail .unterminated

/-- The literal at the first quote of the line; what follows it is ignored. -/
def quotedArgument (line : Line) (keyword : Keyword) : Except ParseError String :=
  match line.text.dropWhile (· ≠ '"') with
  | [] => line.fail (.missingArgument keyword .quoted)
  | _ :: inside =>
    match Quoted.read? inside with
    | some (value, _) => .ok (String.ofList value)
    | none => line.fail .unterminated

def wordArgument (line : Line) (keyword : Keyword) (argument : Argument) :
    Except ParseError String :=
  match line.argument? with
  | some word => .ok (String.ofList word)
  | none => line.fail (.missingArgument keyword argument)

/-- A font is one word, or a literal if the line has a quote. -/
def fontArgument (line : Line) : Except ParseError String :=
  if line.text.contains '"' then line.quotedArgument .font else line.wordArgument .font .font

def fontSizeArgument (line : Line) : Except ParseError Int64 :=
  match line.argument? with
  | none => line.fail (.missingArgument .fontSize .fontSize)
  | some word =>
    match leadingInt? word with
    | some size => .ok size
    | none => line.fail (.invalidNumber (String.ofList word))

def isThen (word : List Char) : Bool :=
  sameWord word "then".toList

/-- The condition before the first `then`, and the words behind it. -/
def conditionArgument (line : Line) : Except ParseError (Condition × List (List Char)) :=
  let others := line.words.drop 1
  match others.dropWhile (!isThen ·) with
  | [] => line.fail (.missingArgument .branch .thenWord)
  | _ :: ignored =>
    (Condition.parseAt line.number (unwords (others.takeWhile (!isThen ·)))).map (·, ignored)

/-- The head of a statement, or none for a line that is skipped, and what there is to warn about. -/
structure Reading where
  head : Option Statement.Head
  warnings : List Warning
deriving DecidableEq

def statement (head : Statement.Head) : Reading where
  head := some head
  warnings := []

def skipped (line : Line) (notice : Warning.Notice) : Reading where
  head := none
  warnings := [line.warn notice]

def read (line : Line) : Except ParseError Reading :=
  match Keyword.ofWord? (line.words.headD []) with
  | some .print => (line.quotedArgument .print).map (statement <| .act <| .print ·)
  | some .image => (line.quotedArgument .image).map (statement <| .act <| .image ·)
  | some .go => (line.wordArgument .go .sceneId).map (statement <| .go · line.number)
  | some .set => (line.wordArgument .set .name).map (statement <| .act <| .setFlag ·)
  | some .unset => (line.wordArgument .unset .name).map (statement <| .act <| .unsetFlag ·)
  | some .add => (line.wordArgument .add .name).map (statement <| .act <| .addItem ·)
  | some .remove => (line.wordArgument .remove .name).map (statement <| .act <| .removeItem ·)
  | some .background =>
    (line.wordArgument .background .color).map (statement <| .act <| .style <| .background ·)
  | some .foreground =>
    (line.wordArgument .foreground .color).map (statement <| .act <| .style <| .foreground ·)
  | some .font => line.fontArgument.map (statement <| .act <| .style <| .font ·)
  | some .fontSize => line.fontSizeArgument.map (statement <| .act <| .style <| .fontSize ·)
  | some .choice => (line.quotedArgument .choice).map (statement <| .choice ·)
  | some .branch =>
    line.conditionArgument.map fun (condition, ignored) =>
      { head := some (.branch condition)
        warnings :=
          if ignored.isEmpty then []
          else [line.warn (.afterThen (String.ofList (unwords ignored)))] }
  | some .otherwise => .ok (line.skipped (.stray .otherwise))
  | some .done => .ok (line.skipped (.stray .done))
  | some .scene | none => .ok (line.skipped (.unknown (String.ofList line.text)))

end Line

end SceneScript
