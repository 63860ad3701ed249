import Mathlib.Data.List.TakeWhile
import SceneScript.Proofs.Script.Numbering
import SceneScript.Proofs.Script.Reading
import SceneScript.Proofs.Script.Sections

/-!
# Where reading a script fails

What is wrong with a line is said here by the line alone: its keyword asks for an argument, and the
argument is missing or cannot be read. Blocks add nothing to that and hide nothing: a line that
closes one spells no keyword that asks for an argument. So a script fails exactly at its first
faulty line, not counting the lines before the first header.
-/

namespace SceneScript

open SceneScript.Text

set_option autoImplicit false

namespace Line

/-- A literal is missing if the line has no quote, and it has to be closed. -/
def literalFault? (line : Line) (keyword : Keyword) : Option ParseError.Cause :=
  if '"' ∈ line.text then
    if (Quoted.read? (line.text.dropWhile (· ≠ '"')).tail).isSome then none else some .unterminated
  else
    some (.missingArgument keyword .quoted)

def wordFault? (line : Line) (keyword : Keyword) (argument : Argument) : Option ParseError.Cause :=
  if line.argument?.isSome then none else some (.missingArgument keyword argument)

def fontSizeFault? (line : Line) : Option ParseError.Cause :=
  match line.argument? with
  | none => some (.missingArgument .fontSize .fontSize)
  | some word =>
    if (leadingInt? word).isSome then none else some (.invalidNumber (String.ofList word))

/-- A branch needs a `then`, and a condition before the first one. -/
def conditionFault? (line : Line) : Option ParseError.Cause :=
  let others := line.words.drop 1
  if others.any isThen then
    match Condition.parse (unwords (others.takeWhile (!isThen ·))) with
    | .ok _ => none
    | .error fault => some (.condition fault)
  else
    some (.missingArgument .branch .thenWord)

def argumentFault? (line : Line) : Keyword → Option ParseError.Cause
  | .scene => line.wordFault? .scene .sceneId
  | .print => line.literalFault? .print
  | .image => line.literalFault? .image
  | .go => line.wordFault? .go .sceneId
  | .set => line.wordFault? .set .name
  | .unset => line.wordFault? .unset .name
  | .add => line.wordFault? .add .name
  | .remove => line.wordFault? .remove .name
  | .background => line.wordFault? .background .color
  | .foreground => line.wordFault? .foreground .color
  | .font => if '"' ∈ line.text then line.literalFault? .font else line.wordFault? .font .font
  | .fontSize => line.fontSizeFault?
  | .choice => line.literalFault? .choice
  | .branch => line.conditionFault?
  | .otherwise | .done => none

/-- The error of a line by itself. A header counts as its keyword, whatever its first word is. -/
def fault? (line : Line) : Option ParseError :=
  let keyword := if line.isHeader then some .scene else line.keyword?
  (keyword.bind line.argumentFault?).map (⟨line.number, ·⟩)

theorem fault?_header {line : Line} (heads : line.isHeader = true) :
    line.fault? = (line.wordFault? .scene .sceneId).map (⟨line.number, ·⟩) := by
  simp only [fault?, heads, if_true]
  rfl

theorem line_of_fault? {line : Line} {error : ParseError} (faulty : line.fault? = some error) :
    error.line = line.number := by
  obtain ⟨cause, -, rfl⟩ := Option.map_eq_some_iff.1 faulty
  rfl

end Line

def ParseError.ofResult? {α : Type} : Except ParseError α → Option ParseError
  | .ok _ => none
  | .error error => some error

section

open ParseError

@[simp] theorem ParseError.ofResult?_ok {α : Type} (value : α) :
    ofResult? (.ok value : Except ParseError α) = none :=
  rfl

@[simp] theorem ParseError.ofResult?_error {α : Type} (error : ParseError) :
    ofResult? (.error error : Except ParseError α) = some error :=
  rfl

@[simp] theorem ParseError.ofResult?_map {α β : Type} (change : α → β)
    (result : Except ParseError α) : ofResult? (result.map change) = ofResult? result := by
  cases result <;> rfl

theorem ParseError.ofResult?_eq_some {α : Type} {result : Except ParseError α}
    {error : ParseError} : ofResult? result = some error ↔ result = .error error := by
  cases result <;> simp

namespace Line

theorem ofResult?_quotedArgument (line : Line) (keyword : Keyword) :
    ofResult? (line.quotedArgument keyword) =
      (line.literalFault? keyword).map (⟨line.number, ·⟩) := by
  unfold quotedArgument literalFault?
  split
  · rename_i none
    have absent : '"' ∉ line.text := by
      intro member
      have all := List.dropWhile_eq_nil_iff.1 none _ member
      simp at all
    rw [if_neg absent]
    rfl
  · rename_i quote inside rest
    have present : '"' ∈ line.text := by
      refine Decidable.byContradiction fun absent => ?_
      have all : line.text.dropWhile (· ≠ '"') = [] := by
        refine List.dropWhile_eq_nil_iff.2 fun c member => decide_eq_true ?_
        rintro rfl
        exact absent member
      rw [all] at rest
      cases rest
    rw [if_pos present, rest, List.tail_cons]
    cases Quoted.read? inside <;> rfl

theorem ofResult?_wordArgument (line : Line) (keyword : Keyword) (argument : Argument) :
    ofResult? (line.wordArgument keyword argument) =
      (line.wordFault? keyword argument).map (⟨line.number, ·⟩) := by
  unfold wordArgument wordFault?
  cases line.argument? <;> rfl

theorem ofResult?_fontArgument (line : Line) :
    ofResult? line.fontArgument = (line.argumentFault? .font).map (⟨line.number, ·⟩) := by
  simp only [fontArgument, argumentFault?, List.contains_iff_mem]
  split
  · exact line.ofResult?_quotedArgument .font
  · exact line.ofResult?_wordArgument .font .font

theorem ofResult?_fontSizeArgument (line : Line) :
    ofResult? line.fontSizeArgument = line.fontSizeFault?.map (⟨line.number, ·⟩) := by
  cases second : line.argument? with
  | none => simp [fontSizeArgument, fontSizeFault?, second, fail]
  | some word =>
      cases size : leadingInt? word <;>
        simp [fontSizeArgument, fontSizeFault?, second, size, fail]

theorem ofResult?_conditionArgument (line : Line) :
    ofResult? line.conditionArgument = line.conditionFault?.map (⟨line.number, ·⟩) := by
  simp only [conditionArgument, conditionFault?]
  generalize line.words.drop 1 = others
  split
  · rename_i none
    have absent : others.any isThen = false := by
      refine List.any_eq_false.2 fun word member => ?_
      have all := List.dropWhile_eq_nil_iff.1 none word member
      simpa using all
    simp [absent, fail]
  · rename_i found ignored rest
    have present : others.any isThen = true := by
      refine Decidable.byContradiction fun absent => ?_
      have all : others.dropWhile (!isThen ·) = [] := by
        refine List.dropWhile_eq_nil_iff.2 fun word member => ?_
        simpa using List.any_eq_false.1 (Bool.not_eq_true _ ▸ absent) word member
      rw [all] at rest
      cases rest
    simp only [present, if_true, ofResult?_map, Condition.parseAt]
    cases Condition.parse (unwords (others.takeWhile (!isThen ·))) <;> rfl

theorem ofResult?_read (line : Line) :
    ofResult? line.read = (line.keyword?.bind line.argumentFault?).map (⟨line.number, ·⟩) := by
  have notScene := line.keyword?_ne_scene
  unfold read
  rw [show Keyword.ofWord? (line.words.headD []) = line.keyword? from rfl]
  cases spelled : line.keyword? with
  | none => rfl
  | some keyword =>
      cases keyword with
      | scene => exact absurd spelled notScene
      | print | image | choice =>
          rw [ofResult?_map]
          exact line.ofResult?_quotedArgument _
      | go | set | unset | add | remove | background | foreground =>
          rw [ofResult?_map]
          exact line.ofResult?_wordArgument _ _
      | font =>
          rw [ofResult?_map]
          exact line.ofResult?_fontArgument
      | fontSize =>
          rw [ofResult?_map]
          exact line.ofResult?_fontSizeArgument
      | branch =>
          rw [ofResult?_map]
          exact line.ofResult?_conditionArgument
      | otherwise | done => rfl

theorem ofResult?_read_plain {line : Line} (plain : line.isHeader = false) :
    ofResult? line.read = line.fault? := by
  rw [ofResult?_read]
  simp [fault?, plain]

end Line

end

namespace Nest

theorem argumentFault?_of_close? {nest closed : Nest} {line : Line}
    (closes : nest.close? line = some closed) : line.keyword?.bind line.argumentFault? = none := by
  cases spelled : line.keyword? with
  | none => rfl
  | some keyword =>
      have ends := Line.closes_of_startsWith (startsWith_of_close? closes) spelled
      cases keyword with
      | otherwise | done => rfl
      | _ => cases ends

/-- Whatever is open, a line fails as it does by itself. -/
theorem ofResult?_step (nest : Nest) (line : Line) :
    ParseError.ofResult? (nest.step line) = ParseError.ofResult? line.read := by
  unfold step
  cases closes : nest.close? line with
  | none => exact ParseError.ofResult?_map _ _
  | some closed =>
      rw [line.ofResult?_read, argumentFault?_of_close? closes]
      rfl

theorem ofResult?_readLines (nest : Nest) {lines : List Line}
    (plain : ∀ line ∈ lines, line.isHeader = false) :
    ParseError.ofResult? (nest.readLines lines).2 = lines.findSome? Line.fault? := by
  induction lines generalizing nest with
  | nil => rfl
  | cons line rest ih =>
      obtain ⟨first, later⟩ := List.forall_mem_cons.1 plain
      rw [List.findSome?_cons, ← Line.ofResult?_read_plain first, ← nest.ofResult?_step line]
      cases stepped : nest.step line with
      | error error => simp [readLines, stepped]
      | ok result =>
          simp only [readLines, stepped, ParseError.ofResult?_ok]
          exact ih result.1 later

end Nest

namespace Section

theorem ofResult?_read {part : Section} (proper : part.Proper) :
    ParseError.ofResult? part.read.result = part.lines.findSome? Line.fault? := by
  rw [lines, List.findSome?_cons, Line.fault?_header proper.header, Line.wordFault?,
    ← Nest.ofResult?_readLines Nest.start proper.body]
  unfold read
  cases part.header.argument? with
  | none => rfl
  | some id => exact ParseError.ofResult?_map _ _

theorem ofResult?_scenes {parts : List Section} (proper : ∀ part ∈ parts, part.Proper) :
    ParseError.ofResult? (scenes parts) =
      (parts.flatMap Section.lines).findSome? Line.fault? := by
  induction parts with
  | nil => rfl
  | cons part rest ih =>
      obtain ⟨first, later⟩ := List.forall_mem_cons.1 proper
      rw [List.flatMap_cons, List.findSome?_append, ← ofResult?_read first, ← ih later]
      cases read : part.read.result with
      | error error =>
          rw [scenes_error read]
          rfl
      | ok scene =>
          rw [scenes_ok read, ParseError.ofResult?_map]
          rfl

end Section

/--
A script fails exactly if some line from the first header on is faulty by itself. The error is that
of the first such line, whatever blocks are open there and whatever follows, and it carries the
number of that line in the text, counted from one.
-/
theorem Program.parse_error_iff_fault (text : String) :
    let lines := (Line.scan text.toList).dropWhile fun line => !line.isHeader
    ((∃ error, (parse text).result = .error error) ↔ ∃ line ∈ lines, line.fault?.isSome) ∧
    ∀ error, (parse text).result = .error error ↔
      ∃ front line behind, lines = front ++ line :: behind ∧ line.fault? = some error ∧
        (∀ earlier ∈ front, earlier.fault? = none) ∧ error.line = line.number ∧ 1 ≤ error.line ∧
        ∃ raw, (Text.lines text.toList)[error.line - 1]? = some raw ∧
          Line.ofRaw? raw error.line = some line := by
  intro lines
  have failure : ParseError.ofResult? (parse text).result = lines.findSome? Line.fault? := by
    rw [result_parse, ParseError.ofResult?_map,
      Section.ofResult?_scenes Section.proper_of_mem_split, Section.flatMap_lines_split]
  have exact : ∀ error, (parse text).result = .error error ↔
      lines.findSome? Line.fault? = some error := by
    intro error
    rw [← failure, ParseError.ofResult?_eq_some]
  refine ⟨?_, ?_⟩
  · simp only [exact, ← Option.isSome_iff_exists, List.findSome?_isSome_iff]
  · intro error
    rw [exact, List.findSome?_eq_some_iff]
    constructor
    · rintro ⟨front, line, behind, split, faulty, sound⟩
      have number := Line.line_of_fault? faulty
      have scanned : line ∈ Line.scan text.toList := by
        apply (List.dropWhile_sublist _).subset
        rw [show List.dropWhile _ _ = lines from rfl, split]
        simp
      obtain ⟨positive, raw, placed, kept⟩ := Line.mem_scan.1 scanned
      rw [← number] at positive placed kept
      exact ⟨front, line, behind, split, faulty, sound, number, positive, raw, placed, kept⟩
    · rintro ⟨front, line, behind, split, faulty, sound, -⟩
      exact ⟨front, line, behind, split, faulty, sound⟩

end SceneScript
