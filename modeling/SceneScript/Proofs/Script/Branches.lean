import Mathlib.Data.List.TakeWhile
import SceneScript.Proofs.Condition.Scanning
import SceneScript.Proofs.Script.Reading

/-!
# The condition of a branch

The condition of a branch is what its line has between the word `if` and the first word `then`. The
line is cut into words for that, and the words of the condition are put together again with single
spaces. Tokens do not depend on which blanks there are, so reading gives what it gives for the text
as it was written, faults included.
-/

namespace SceneScript

open SceneScript.Text

set_option autoImplicit false

theorem Condition.parseAt_unwords_words (number : Nat) (text : List Char) :
    parseAt number (unwords (words text)) = parseAt number text := by
  rw [parseAt, parseAt, parse, parse, Token.scan_unwords_words]

namespace Line

def isIf (word : List Char) : Bool :=
  sameWord word "if".toList

theorem ofWord?_of_isIf {word : List Char} (same : isIf word = true) :
    Keyword.ofWord? word = some .branch := by
  have small : lower word = "if".toList := eq_of_beq same
  rw [Keyword.ofWord?, small]
  rfl

theorem isThen_of_isIf {word : List Char} (same : isIf word = true) : isThen word = false := by
  have small : lower word = "if".toList := eq_of_beq same
  rw [isThen, sameWord, small]
  rfl

theorem words_keyword {word keyword behind : List Char} (same : sameWord word keyword = true)
    (letters : ∀ c ∈ lower keyword, isWordChar c = true) (some : lower keyword ≠ [])
    (apart : behind = [] ∨ ∃ blank rest, behind = blank :: rest ∧ isBlank blank = true) :
    Text.words (word ++ behind) = word :: Text.words behind := by
  have spelled := isWordChar_of_sameWord same letters
  have filled : word ≠ [] := by
    rintro rfl
    exact some (eq_of_beq same).symm
  have alone : Text.words word = [word] :=
    words_of_solid (fun c member => isBlank_of_isWordChar (spelled c member)) filled
  rcases apart with rfl | ⟨blank, rest, rfl, white⟩
  · rw [List.append_nil, alone]
    rfl
  · rw [words_append_blank white, alone, ← List.nil_append (blank :: rest),
      words_append_blank white]
    rfl

/--
The line is the word `if`, the condition, the word `then`, and nothing more or a blank and any text.
No word of the condition is a `then`. Blanks stand before and behind the condition; where there is
no condition, one blank is enough.
-/
structure Asks (line : Line) (condition behind : List Char) : Prop where
  free : ∀ word ∈ Text.words condition, isThen word = false
  apart : behind = [] ∨ ∃ blank rest, behind = blank :: rest ∧ isBlank blank = true
  written : ∃ opening gap space closing : List Char,
    line.text = opening ++ (gap ++ (condition ++ (space ++ (closing ++ behind)))) ∧
    isIf opening = true ∧ isThen closing = true ∧ gap ≠ [] ∧ (space ≠ [] ∨ condition = []) ∧
    (∀ c ∈ gap, isBlank c = true) ∧ (∀ c ∈ space, isBlank c = true)

theorem words_of_asks {line : Line} {condition behind : List Char}
    (asks : line.Asks condition behind) :
    ∃ opening closing, isIf opening = true ∧ isThen closing = true ∧
      line.words = opening :: (Text.words condition ++ closing :: Text.words behind) := by
  obtain ⟨opening, gap, space, closing, whole, starts, ends, wide, apart, white, clear⟩ :=
    asks.written
  refine ⟨opening, closing, starts, ends, ?_⟩
  have first : Text.words opening = [opening] := by
    have alone := words_keyword starts (List.all_eq_true.1 (by decide)) (by decide) (.inl rfl)
    rwa [List.append_nil] at alone
  have last : Text.words (closing ++ behind) = closing :: Text.words behind :=
    words_keyword ends (List.all_eq_true.1 (by decide)) (by decide) asks.apart
  have middle : Text.words (condition ++ (space ++ (closing ++ behind))) =
      Text.words condition ++ Text.words (closing ++ behind) := by
    rcases apart with some | rfl
    · exact words_gap some clear condition _
    · rw [List.nil_append, words_blanks clear]
      rfl
  rw [Line.words, whole, words_gap wide white, first, middle, last]
  rfl

theorem conditionArgument_of_words {line : Line} {first closing : List Char}
    {front ignored : List (List Char)}
    (cut : line.words = first :: (front ++ closing :: ignored))
    (free : ∀ word ∈ front, isThen word = false) (ends : isThen closing = true) :
    line.conditionArgument =
      (Condition.parseAt line.number (unwords front)).map (·, ignored) := by
  have skipped : ∀ word ∈ front, (!isThen word) = true := by
    intro word member
    rw [free word member]
    rfl
  have others : line.words.drop 1 = front ++ closing :: ignored := by
    rw [cut]
    rfl
  rw [conditionArgument, others]
  simp only [List.dropWhile_append_of_pos skipped, List.takeWhile_append_of_pos skipped,
    List.dropWhile_cons, List.takeWhile_cons, ends, Bool.not_true, Bool.false_eq_true, if_false,
    List.append_nil]

theorem conditionArgument_of_asks {line : Line} {condition behind : List Char}
    (asks : line.Asks condition behind) :
    line.conditionArgument =
      (Condition.parseAt line.number condition).map (·, Text.words behind) := by
  obtain ⟨opening, closing, -, ends, cut⟩ := words_of_asks asks
  rw [conditionArgument_of_words cut asks.free ends, Condition.parseAt_unwords_words]

theorem conditionArgument_of_free {line : Line}
    (free : ∀ word ∈ line.words, isThen word = false) :
    line.conditionArgument = line.fail (.missingArgument .branch .thenWord) := by
  have none : (line.words.drop 1).dropWhile (!isThen ·) = [] := by
    refine List.dropWhile_eq_nil_iff.2 fun word member => ?_
    rw [free word (List.mem_of_mem_drop member)]
    rfl
  rw [conditionArgument, none]

theorem conditionArgument_of_findIdx? {line : Line} {position : Nat}
    (starts : isIf (line.words.headD []) = true)
    (found : line.words.findIdx? isThen = some position) :
    1 ≤ position ∧ position < line.words.length ∧
      line.conditionArgument =
        (Condition.parseAt line.number (unwords ((line.words.take position).drop 1))).map
          (·, line.words.drop (position + 1)) := by
  obtain ⟨inside, ends, before⟩ := List.findIdx?_eq_some_iff_getElem.1 found
  obtain ⟨first, others, cut⟩ := List.exists_cons_of_ne_nil (List.ne_nil_of_length_pos
    (Nat.zero_lt_of_lt inside))
  have spelled : isIf first = true := by
    rw [cut] at starts
    exact starts
  have behind : 1 ≤ position := by
    refine Nat.one_le_iff_ne_zero.2 ?_
    rintro rfl
    simp only [cut, List.getElem_cons_zero, isThen_of_isIf spelled] at ends
    cases ends
  refine ⟨behind, inside, ?_⟩
  obtain ⟨place, rfl⟩ : ∃ place, position = place + 1 := ⟨position - 1, by omega⟩
  have split : line.words =
      first :: ((line.words.take (place + 1)).drop 1 ++
        line.words.get ⟨place + 1, inside⟩ :: line.words.drop (place + 1 + 1)) := by
    rw [List.get_eq_getElem, ← List.drop_eq_getElem_cons inside]
    simp [cut]
  refine conditionArgument_of_words split ?_ ends
  intro word member
  obtain ⟨earlier, low, rfl⟩ := List.getElem_of_mem (List.mem_of_mem_drop member)
  rw [List.length_take] at low
  rw [List.getElem_take]
  exact Bool.eq_false_iff.2 (before earlier (by omega))

end Line

namespace Nest

theorem step_of_isIf (nest : Nest) {line : Line} (starts : Line.isIf (line.words.headD []) = true) :
    nest.step line = line.conditionArgument.map fun found =>
      (nest.enter (.thenPart found.1) line.number,
        if found.2.isEmpty then []
        else [line.warn (.afterThen (String.ofList (unwords found.2)))]) := by
  have spelled : line.keyword? = some .branch := Line.ofWord?_of_isIf starts
  have statement : line.isStatement = true := by
    rw [Line.isStatement, spelled]
    rfl
  rw [step, nest.close?_of_isStatement statement]
  simp only [Line.read, Line.ofWord?_of_isIf starts]
  cases line.conditionArgument <;> rfl

/--
Whatever blocks are open, the line of a branch means the text that is written between its `if` and
its first `then`: the line fails with the very error of this text, and otherwise it opens the then
part under the condition that the text gives, with a remark if something follows the `then`. Where
no word of such a line is a `then`, that is the missing argument. Where one is, it is not the first
word, so the words that the condition is put together from are a proper range of the words of the
line.
-/
theorem step_asks (nest : Nest) (line : Line) :
    (∀ condition behind, line.Asks condition behind →
      nest.step line = (Condition.parseAt line.number condition).map fun condition =>
        (nest.enter (.thenPart condition) line.number,
          if (words behind).isEmpty then []
          else [line.warn (.afterThen (String.ofList (unwords (words behind))))])) ∧
    (Line.isIf (line.words.headD []) = true → (∀ word ∈ line.words, Line.isThen word = false) →
      nest.step line = .error ⟨line.number, .missingArgument .branch .thenWord⟩) ∧
    (Line.isIf (line.words.headD []) = true → ∀ position,
      line.words.findIdx? Line.isThen = some position →
        1 ≤ position ∧ position < line.words.length ∧
          line.conditionArgument =
            (Condition.parseAt line.number (unwords ((line.words.take position).drop 1))).map
              (·, line.words.drop (position + 1))) := by
  refine ⟨?_, ?_, ?_⟩
  · intro condition behind asks
    obtain ⟨opening, closing, starts, -, cut⟩ := Line.words_of_asks asks
    have first : Line.isIf (line.words.headD []) = true := by
      rw [cut]
      exact starts
    rw [nest.step_of_isIf first, Line.conditionArgument_of_asks asks]
    cases Condition.parseAt line.number condition <;> rfl
  · intro starts free
    rw [nest.step_of_isIf starts, Line.conditionArgument_of_free free]
    rfl
  · intro starts position found
    exact Line.conditionArgument_of_findIdx? starts found

/-- A branch with blanks of several kinds and two `then`s, and one without a condition. -/
def threshold : String :=
  "scene a\n\tiF　(has key)AND\u00a0not(open)  THEN then go ; b\nif then"

theorem step_asks_threshold :
    ∃ line other : Line, Line.scan threshold.toList = [⟨1, "scene a".toList⟩, line, other] ∧
      line.Asks "(has key)AND\u00a0not(open)".toList " then go".toList ∧ other.Asks [] [] ∧
      start.step line = .ok
        (start.enter (.thenPart (.conj (.has "key") (.neg (.ident "open")))) 2,
          [⟨2, .afterThen "then go"⟩]) ∧
      start.step other = .error ⟨3, .condition (.malformed .unexpectedEnd)⟩ := by
  have scanned : Line.scan threshold.toList = [⟨1, "scene a".toList⟩,
      ⟨2, "iF　(has key)AND\u00a0not(open)  THEN then go".toList⟩, ⟨3, "if then".toList⟩] := by
    decide +kernel
  have line : (Line.mk 2 "iF　(has key)AND\u00a0not(open)  THEN then go".toList).Asks
      "(has key)AND\u00a0not(open)".toList " then go".toList :=
    ⟨by decide +kernel, .inr ⟨' ', "then go".toList, rfl, rfl⟩, "iF".toList, ['　'], [' ', ' '],
      "THEN".toList, by decide +kernel, rfl, rfl, by decide, .inl (by decide),
      List.all_eq_true.1 rfl, List.all_eq_true.1 rfl⟩
  have other : (Line.mk 3 "if then".toList).Asks [] [] :=
    ⟨by decide +kernel, .inl rfl, "if".toList, [' '], [], "then".toList, by decide +kernel, rfl,
      rfl, by decide, .inr rfl, List.all_eq_true.1 rfl, List.all_eq_true.1 rfl⟩
  refine ⟨_, _, scanned, line, other, ?_, ?_⟩
  · rw [(step_asks start _).1 _ _ line]
    decide +kernel
  · rw [(step_asks start _).1 _ _ other]
    decide +kernel

end Nest

end SceneScript
