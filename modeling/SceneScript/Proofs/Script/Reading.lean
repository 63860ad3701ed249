import SceneScript.Proofs.Text.Words
import SceneScript.Script.Nest

/-!
# What a line can say

The first word of a line decides what the line is. A statement keyword gives the head of a
statement, with at most a remark on words behind `then`; any other line is skipped with one warning.
A line that closes a block, or starts its else part, is never the line of a statement: no statement
keyword begins like `else` or `end`.
-/

namespace SceneScript

open SceneScript.Text

set_option autoImplicit false

def Keyword.closes (keyword : Keyword) : Bool :=
  keyword ∈ [Keyword.otherwise, Keyword.done]

def Warning.Notice.isSkip : Warning.Notice → Bool
  | stray _ | unknown _ => true
  | _ => false

namespace Line

def keyword? (line : Line) : Option Keyword :=
  Keyword.ofWord? (line.words.headD [])

def isStatement (line : Line) : Bool :=
  line.keyword?.any fun keyword => !keyword.closes

theorem keyword?_ne_scene (line : Line) : line.keyword? ≠ some .scene := by
  intro spelled
  have member := List.mem_of_find?_eq_some spelled
  simp [Keyword.inScene] at member

theorem wordArgument_ok {line : Line} {keyword : Keyword} {argument : Argument} {word : String}
    (read : line.wordArgument keyword argument = .ok word) :
    line.argument? = some word.toList := by
  unfold wordArgument at read
  split at read
  · rename_i found second
    cases read
    rw [second, String.toList_ofList]
  · cases read

/-- What is read of a line that starts a statement. A `go` carries the number of the line. -/
structure Started (line : Line) (reading : Reading) : Prop where
  statement : line.isStatement = true
  head : ∃ head, reading.head = some head
  go : ∀ target number, reading.head = some (.go target number) →
    number = line.number ∧ line.keyword? = some .go ∧ line.argument? = some target.toList
  warnings : reading.warnings = [] ∨
    ∃ ignored, reading.warnings = [line.warn (.afterThen ignored)]

structure Passed (line : Line) (reading : Reading) : Prop where
  statement : line.isStatement = false
  skipped : ∃ notice, reading = line.skipped notice ∧ notice.isSkip = true

theorem started_of_map {line : Line} {α : Type} {result : Except ParseError α}
    {make : α → Statement.Head} {reading : Reading} (named : line.isStatement = true)
    (own : ∀ value target number, result = .ok value → make value = .go target number →
      number = line.number ∧ line.keyword? = some .go ∧ line.argument? = some target.toList)
    (read : result.map (fun value => statement (make value)) = .ok reading) :
    line.Started reading := by
  cases result with
  | error error => cases read
  | ok value =>
      cases read
      exact ⟨named, ⟨_, rfl⟩, fun target number gives =>
        own value target number rfl (Option.some.inj gives), Or.inl rfl⟩

theorem read_cases {line : Line} {reading : Reading} (read : line.read = .ok reading) :
    line.Started reading ∨ line.Passed reading := by
  have notScene := line.keyword?_ne_scene
  unfold Line.read at read
  rw [show Keyword.ofWord? (line.words.headD []) = line.keyword? from rfl] at read
  cases spelled : line.keyword? with
  | none =>
      rw [spelled] at read
      cases read
      exact Or.inr ⟨by simp [isStatement, spelled], _, rfl, rfl⟩
  | some keyword =>
      have named : line.isStatement = !keyword.closes := by simp [isStatement, spelled]
      rw [spelled] at read
      cases keyword with
      | scene => exact absurd spelled notScene
      | otherwise | done =>
          cases read
          exact Or.inr ⟨named, _, rfl, rfl⟩
      | branch =>
          cases result : line.conditionArgument with
          | error error =>
              rw [result] at read
              cases read
          | ok value =>
              obtain ⟨condition, ignored⟩ := value
              rw [result] at read
              cases read
              refine Or.inl ⟨named, ⟨_, rfl⟩, ?_, ?_⟩
              · intro target number gives
                cases gives
              · cases ignored with
                | nil => exact Or.inl rfl
                | cons first rest => exact Or.inr ⟨_, rfl⟩
      | go =>
          left
          apply started_of_map named _ read
          intro value target number word same
          cases same
          exact ⟨rfl, spelled, wordArgument_ok word⟩
      | _ =>
          left
          apply started_of_map named _ read
          intro value target number word same
          cases same

end Line

-- Only the first letter is looked at: no other keyword inside a scene starts with an e.
theorem Line.closes_of_startsWith {line : Line} {keyword : Keyword}
    (starts : line.startsWith "else" = true ∨ line.startsWith "end" = true)
    (spelled : line.keyword? = some keyword) : keyword.closes = true := by
  have first : ∃ c rest, line.text = c :: rest ∧ c.toLower = 'e' := by
    cases letters : line.text with
    | nil =>
        rw [startsWith, startsWith, letters] at starts
        exact absurd starts (by decide)
    | cons c rest =>
        refine ⟨c, rest, rfl, ?_⟩
        rcases starts with starts | starts <;>
          simp only [startsWith, letters, startsWithKeyword, Bool.and_eq_true] at starts <;>
          exact eq_of_beq (Bool.and_eq_true_iff.1 starts.2).1
  obtain ⟨c, rest, letters, small⟩ := first
  have solid : isBlank c = false := by
    apply isBlank_of_isWordChar
    apply isWordChar_of_toLower
    rw [small]
    decide
  obtain ⟨word, others, cut⟩ : ∃ word others, Text.words (c :: rest) = (c :: word) :: others :=
    exists_words_of_solid (List.cons_ne_nil c []) (by simpa using solid) rest
  have same : keyword.text.toList = lower (c :: word) := by
    have spells := List.find?_some spelled
    rw [Line.words, letters, cut] at spells
    exact eq_of_beq spells
  have initial : keyword.text.toList.head? = some 'e' := by
    rw [same, ← small]
    rfl
  revert initial
  cases keyword <;> decide

namespace Nest

theorem startsWith_of_close? {nest closed : Nest} {line : Line}
    (closes : nest.close? line = some closed) :
    line.startsWith "else" = true ∨ line.startsWith "end" = true := by
  obtain ⟨recent, blocks⟩ := nest
  cases blocks with
  | nil => cases closes
  | cons block outer =>
      cases opens : block.opening <;> simp only [close?, opens] at closes <;> grind

theorem isStatement_of_close? {nest closed : Nest} {line : Line}
    (closes : nest.close? line = some closed) : line.isStatement = false := by
  cases spelled : line.keyword? with
  | none => simp [Line.isStatement, spelled]
  | some keyword =>
      have ends := Line.closes_of_startsWith (startsWith_of_close? closes) spelled
      simp [Line.isStatement, spelled, ends]

theorem close?_of_isStatement (nest : Nest) {line : Line} (statement : line.isStatement = true) :
    nest.close? line = none := by
  cases closes : nest.close? line with
  | none => rfl
  | some closed =>
      rw [isStatement_of_close? closes] at statement
      cases statement

end Nest

end SceneScript
