import SceneScript.Proofs.Script.Numbering
import SceneScript.Proofs.Script.Sections

/-!
# Moving line numbers

Reading takes line numbers over without looking at them. So lines that stand further down in a text
are read the same way, and every number that comes out of them is further down by as much: in `go`s
and scenes, in warnings and in the error.
-/

namespace SceneScript

set_option autoImplicit false

def ParseError.shift (offset : Nat) (error : ParseError) : ParseError :=
  { error with line := error.line + offset }

def Warning.shift (offset : Nat) (warning : Warning) : Warning :=
  { warning with line := warning.line + offset }

mutual

def Statement.shift (offset : Nat) : Statement → Statement
  | .act action => .act action
  | .go target line => .go target (line + offset)
  | .choice label body => .choice label (Block.shift offset body)
  | .branch condition thenBody elseBody =>
    .branch condition (Block.shift offset thenBody) (Block.shift offset elseBody)

def Block.shift (offset : Nat) : List Statement → List Statement
  | [] => []
  | statement :: rest => statement.shift offset :: Block.shift offset rest

end

def Scene.shift (offset : Nat) (scene : Scene) : Scene where
  id := scene.id
  line := scene.line + offset
  body := Block.shift offset scene.body

def Statement.Head.shift (offset : Nat) : Statement.Head → Statement.Head
  | go target line => go target (line + offset)
  | head => head

def Line.Reading.shift (offset : Nat) (reading : Line.Reading) : Line.Reading where
  head := reading.head.map (Statement.Head.shift offset)
  warnings := reading.warnings.map (Warning.shift offset)

/-- The result with its error moved, and its value by a function of its own. -/
def ParseError.shiftResult {α β : Type} (offset : Nat) (change : α → β) :
    Except ParseError α → Except ParseError β
  | .ok value => .ok (change value)
  | .error error => .error (error.shift offset)

theorem ParseError.shiftResult_map {α β γ δ : Type} (offset : Nat) {first : α → β} {second : γ → δ}
    {change : α → γ} {other : β → δ} (same : ∀ value, second (change value) = other (first value))
    (result : Except ParseError α) :
    (shiftResult offset change result).map second =
      shiftResult offset other (result.map first) := by
  cases result with
  | error error => rfl
  | ok value => exact congrArg Except.ok (same value)

namespace Line

open ParseError

variable (offset : Nat) (line : Line)

theorem quotedArgument_shift (keyword : Keyword) :
    (line.shift offset).quotedArgument keyword =
      shiftResult offset id (line.quotedArgument keyword) := by
  simp only [quotedArgument, shift]
  split
  · rfl
  · split <;> rfl

theorem wordArgument_shift (keyword : Keyword) (argument : Argument) :
    (line.shift offset).wordArgument keyword argument =
      shiftResult offset id (line.wordArgument keyword argument) := by
  simp only [wordArgument, argument?, words, shift]
  split <;> rfl

theorem fontArgument_shift :
    (line.shift offset).fontArgument = shiftResult offset id line.fontArgument := by
  have quoted := line.quotedArgument_shift offset .font
  have word := line.wordArgument_shift offset .font .font
  unfold fontArgument
  rw [quoted, word, shift]
  split <;> rfl

theorem fontSizeArgument_shift :
    (line.shift offset).fontSizeArgument = shiftResult offset id line.fontSizeArgument := by
  simp only [fontSizeArgument, argument?, words, shift]
  split
  · rfl
  · split <;> rfl

theorem conditionArgument_shift :
    (line.shift offset).conditionArgument = shiftResult offset id line.conditionArgument := by
  simp only [conditionArgument, words, shift]
  split
  · rfl
  · simp only [Condition.parseAt]
    cases Condition.parse _ <;> rfl

theorem read_shift :
    (line.shift offset).read = shiftResult offset (Reading.shift offset) line.read := by
  unfold read
  rw [show (line.shift offset).words = line.words from rfl]
  cases Keyword.ofWord? (line.words.headD []) with
  | none => rfl
  | some keyword =>
      cases keyword with
      | print | image | choice =>
          dsimp only
          rw [quotedArgument_shift]
          apply shiftResult_map offset
          intro value
          rfl
      | go | set | unset | add | remove | background | foreground =>
          dsimp only
          rw [wordArgument_shift]
          apply shiftResult_map offset
          intro value
          rfl
      | font =>
          dsimp only
          rw [fontArgument_shift]
          apply shiftResult_map offset
          intro value
          rfl
      | fontSize =>
          dsimp only
          rw [fontSizeArgument_shift]
          apply shiftResult_map offset
          intro value
          rfl
      | branch =>
          dsimp only
          rw [conditionArgument_shift]
          apply shiftResult_map offset
          rintro ⟨condition, ignored⟩
          cases ignored <;> rfl
      | scene | otherwise | done => rfl

end Line

theorem Block.shift_append (offset : Nat) (block others : Block) :
    Block.shift offset (block ++ others) =
      Block.shift offset block ++ Block.shift offset others := by
  induction block with
  | nil => rfl
  | cons statement rest ih => rw [List.cons_append, Block.shift, ih, Block.shift, List.cons_append]

theorem Block.shift_reverse (offset : Nat) (block : Block) :
    Block.shift offset block.reverse = (Block.shift offset block).reverse := by
  induction block with
  | nil => rfl
  | cons statement rest ih =>
      rw [List.reverse_cons, Block.shift_append, ih]
      exact List.reverse_cons.symm

def Opening.shift (offset : Nat) : Opening → Opening
  | choice label => choice label
  | thenPart condition => thenPart condition
  | elsePart condition thenBody => elsePart condition (Block.shift offset thenBody)

def OpenBlock.shift (offset : Nat) (block : OpenBlock) : OpenBlock where
  opening := block.opening.shift offset
  line := block.line + offset
  before := Block.shift offset block.before

theorem Opening.close_shift (offset : Nat) (opening : Opening) (body : Block) :
    (opening.shift offset).close (Block.shift offset body) =
      (opening.close body).shift offset := by
  cases opening <;> rfl

theorem Opening.keyword_shift (offset : Nat) (opening : Opening) :
    (opening.shift offset).keyword = opening.keyword := by
  cases opening <;> rfl

namespace Nest

open ParseError

def shift (offset : Nat) (nest : Nest) : Nest where
  recent := Block.shift offset nest.recent
  blocks := nest.blocks.map (OpenBlock.shift offset)

variable (offset : Nat)

theorem close?_shift (nest : Nest) (line : Line) :
    (nest.shift offset).close? (line.shift offset) =
      (nest.close? line).map (Nest.shift offset) := by
  obtain ⟨recent, blocks⟩ := nest
  have starts : ∀ keyword, (line.shift offset).startsWith keyword = line.startsWith keyword :=
    fun _ => rfl
  cases blocks with
  | nil => rfl
  | cons block outer =>
      obtain ⟨opening, number, before⟩ := block
      cases opening with
      | choice label | elsePart condition thenBody =>
          simp only [close?, shift, List.map_cons, OpenBlock.shift, Opening.shift, starts,
            ← Block.shift_reverse]
          cases line.startsWith "end" <;> rfl
      | thenPart condition =>
          simp only [close?, shift, List.map_cons, OpenBlock.shift, Opening.shift, starts,
            ← Block.shift_reverse]
          cases line.startsWith "else" with
          | true => rfl
          | false => cases line.startsWith "end" <;> rfl

theorem add_shift (nest : Nest) (line : Line) (head : Statement.Head) :
    (nest.shift offset).add (line.shift offset) (head.shift offset) =
      (nest.add line head).shift offset := by
  cases head <;> rfl

theorem step_shift (nest : Nest) (line : Line) :
    (nest.shift offset).step (line.shift offset) =
      shiftResult offset (fun (next, warnings) =>
        (next.shift offset, warnings.map (Warning.shift offset))) (nest.step line) := by
  rw [step, close?_shift, step]
  cases nest.close? line with
  | some closed => rfl
  | none =>
      rw [Option.map_none, line.read_shift]
      apply shiftResult_map offset
      rintro ⟨head, warnings⟩
      cases head with
      | none => rfl
      | some head => exact congrArg (·, _) (add_shift offset nest line head)

theorem finish_shift (recent : List Statement) (blocks : List OpenBlock) :
    finish (Block.shift offset recent) (blocks.map (OpenBlock.shift offset)) =
      ((finish recent blocks).1.map (Warning.shift offset),
        Block.shift offset (finish recent blocks).2) := by
  induction blocks generalizing recent with
  | nil =>
      rw [List.map_nil, finish, finish, Block.shift_reverse]
      rfl
  | cons block outer ih =>
      have later := ih (block.opening.close recent.reverse :: block.before)
      rw [Block.shift, ← Opening.close_shift, Block.shift_reverse] at later
      simp only [List.map_cons, finish, OpenBlock.shift, later, Opening.keyword_shift]
      rfl

theorem readLines_shift (nest : Nest) (lines : List Line) :
    (nest.shift offset).readLines (lines.map (Line.shift offset)) =
      ((nest.readLines lines).1.map (Warning.shift offset),
        shiftResult offset (Block.shift offset) (nest.readLines lines).2) := by
  induction lines generalizing nest with
  | nil =>
      rw [List.map_nil, readLines, readLines, shift, finish_shift]
      rfl
  | cons line rest ih =>
      rw [List.map_cons, readLines, step_shift, readLines]
      cases stepped : nest.step line with
      | error error => rfl
      | ok result =>
          obtain ⟨next, warnings⟩ := result
          simp only [shiftResult, ih next, List.map_append]

end Nest

namespace Section

open ParseError

variable (offset : Nat)

def shift (part : Section) : Section where
  header := part.header.shift offset
  body := part.body.map (Line.shift offset)

theorem read_shift (part : Section) :
    (part.shift offset).read = ⟨part.read.warnings.map (Warning.shift offset),
      shiftResult offset (Scene.shift offset) part.read.result⟩ := by
  have second : (part.shift offset).header.argument? = part.header.argument? := rfl
  simp only [read, second]
  cases part.header.argument? with
  | none => rfl
  | some id =>
      have body := Nest.readLines_shift offset Nest.start part.body
      rw [show Nest.start.shift offset = Nest.start from rfl] at body
      simp only [shift, body]
      rw [shiftResult_map offset]
      intro value
      rfl

theorem split_shift (lines : List Line) :
    split (lines.map (Line.shift offset)) =
      ((split lines).1.map (Line.shift offset), (split lines).2.map (shift offset)) := by
  induction lines with
  | nil => rfl
  | cons line rest ih =>
      have same : (line.shift offset).isHeader = line.isHeader := rfl
      rw [List.map_cons]
      cases heads : line.isHeader with
      | true =>
          rw [split_header (same.trans heads), split_header heads, ih]
          rfl
      | false =>
          rw [split_plain (same.trans heads), split_plain heads, ih]
          rfl

theorem scenes_shift (parts : List Section) :
    scenes (parts.map (shift offset)) =
      shiftResult offset (List.map (Scene.shift offset)) (scenes parts) := by
  induction parts with
  | nil => rfl
  | cons part rest ih =>
      have moved := congrArg Outcome.result (read_shift offset part)
      rw [List.map_cons]
      cases read : part.read.result with
      | error error =>
          rw [read] at moved
          rw [scenes_error moved, scenes_error read]
          rfl
      | ok scene =>
          rw [read] at moved
          rw [scenes_ok moved, scenes_ok read, ih]
          apply shiftResult_map offset
          intro value
          rfl

end Section

end SceneScript
