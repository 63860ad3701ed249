import SceneScript.Proofs.Script.Branches
import SceneScript.Proofs.Script.Printer

/-!
# Reading printed lines

Every printed line is read as what it was written for: the argument behind its keyword comes back,
and only the lines that close a block or start a scene look like that.
-/

namespace SceneScript

open SceneScript.Text

set_option autoImplicit false

/-- The head that a line of the given number is read as. -/
def Statement.Head.placed (number : Nat) : Statement.Head → Statement.Head
  | go target _ => go target number
  | head => head

def Keyword.starts (keyword : Keyword) : Bool :=
  keyword ∉ [Keyword.scene, Keyword.otherwise, Keyword.done]

theorem Keyword.ofWord?_text {keyword : Keyword} (starts : keyword.starts = true) :
    Keyword.ofWord? keyword.text.toList = some keyword := by
  revert starts
  cases keyword <;> decide

theorem all_zip_of_append {α β : Type} {test : α × β → Bool} (first rest : List α) (other : List β)
    (whole : ((first ++ rest).zip other).all test = true) : (first.zip other).all test = true := by
  induction first generalizing other with
  | nil => rfl
  | cons head first ih =>
      cases other with
      | nil => rfl
      | cons next other =>
          simp only [List.cons_append, List.zip_cons_cons, List.all_cons, Bool.and_eq_true]
            at whole ⊢
          exact ⟨whole.1, ih other whole.2⟩

/-- A row starts with another keyword only if its own keyword goes along with it. -/
theorem startsWith_row {keyword : Keyword} {other : String}
    (differ : (keyword.text.toList.zip other.toList).all
      (fun pair => sameLetter pair.1 pair.2) = false)
    (number : Nat) (argument : List Char) :
    (Line.mk number (keyword.row argument)).startsWith other = false := by
  apply Bool.eq_false_iff.2
  intro starts
  simp only [Line.startsWith, startsWithKeyword, Keyword.row, Bool.and_eq_true] at starts
  rw [all_zip_of_append _ _ _ starts.2] at differ
  cases differ

theorem startsWith_statement {keyword : Keyword} (starts : keyword.starts = true) (number : Nat)
    (argument : List Char) :
    (Line.mk number (keyword.row argument)).startsWith "else" = false ∧
      (Line.mk number (keyword.row argument)).startsWith "end" = false ∧
      (Line.mk number (keyword.row argument)).startsWith "scene" = false := by
  refine ⟨startsWith_row ?_ number argument, startsWith_row ?_ number argument,
    startsWith_row ?_ number argument⟩ <;> revert starts <;> cases keyword <;> decide

theorem wordArgument_row (keyword : Keyword) (argument : Argument) {word : String}
    (bare : IsBare word) (number : Nat) :
    (Line.mk number (keyword.row word.toList)).wordArgument keyword argument = .ok word := by
  simp [Line.wordArgument, Line.argument?, Line.words, words_row, bare.words_eq]

theorem quotedArgument_row (keyword : Keyword) (value : String) (number : Nat) :
    (Line.mk number (keyword.row (Quoted.write value.toList))).quotedArgument keyword =
      .ok value := by
  have skipped : ∀ c ∈ keyword.text.toList ++ [' '], decide (c ≠ '"') = true := by
    intro c member
    rcases List.mem_append.1 member with inText | blank
    · exact decide_eq_true (ne_of_isWordChar (keyword.isWordChar_of_mem_text c inText) (by decide))
    · rw [List.mem_singleton.1 blank]
      decide
  have split : keyword.row (Quoted.write value.toList) =
      keyword.text.toList ++ [' '] ++ '"' :: (Quoted.escape value.toList ++ ['"']) := by
    simp [Keyword.row, Quoted.write]
  rw [Line.quotedArgument, split, List.dropWhile_append_of_pos skipped]
  simp [Quoted.read?_escape]

theorem fontArgument_row (family : String) (number : Nat) :
    (Line.mk number (Keyword.font.row (Quoted.write family.toList))).fontArgument = .ok family := by
  have quoted : (Keyword.font.row (Quoted.write family.toList)).contains '"' = true := by
    simp [Keyword.row, Quoted.write]
  rw [Line.fontArgument, if_pos quoted, quotedArgument_row]

theorem fontSizeArgument_row {size : Int64} (low : -(signedLimit : Int) < size.toInt)
    (high : size.toInt < signedLimit) (number : Nat) :
    (Line.mk number (Keyword.fontSize.row (toString size.toInt).toList)).fontSizeArgument =
      .ok size := by
  have second : (Line.mk number (Keyword.fontSize.row (toString size.toInt).toList)).argument? =
      some (toString size.toInt).toList := by
    simp only [Line.argument?, Line.words, words_row, (isBare_toString size.toInt).words_eq]
    rfl
  rw [Line.fontSizeArgument, second]
  simp only [leadingInt?_toString low high]

theorem conditionArgument_row {condition : Condition} (printable : condition.Printable)
    (number : Nat) :
    (Line.mk number (Statement.Head.row (.branch condition))).conditionArgument =
      .ok (condition, []) := by
  have quiet : ∀ word ∈ Text.words condition.render.toList, Line.isThen word = false := by
    intro word member
    exact Condition.quiet_render printable.named printable.other [] [] (by simp [Condition.Signs])
      (by simp [Condition.Signs]) word (by simpa using member)
  have cut : (Line.mk number (Statement.Head.row (.branch condition))).words =
      Keyword.branch.text.toList ::
        (Text.words condition.render.toList ++ "then".toList :: []) := by
    have letters : ∀ c ∈ "then".toList, isWordChar c = true := List.all_eq_true.1 (by decide)
    have last : Text.words "then".toList = ["then".toList] :=
      words_of_solid (fun c member => isBlank_of_isWordChar (letters c member)) (by decide)
    rw [Line.words, Statement.Head.row, words_row, words_append_blank (by decide), last]
  rw [Line.conditionArgument_of_words cut quiet (by decide), Condition.parseAt_unwords_words,
    Condition.parseAt, Condition.parse_render printable.named printable.low printable.room]
  rfl

theorem ofWord?_row (keyword : Keyword) (starts : keyword.starts = true) (number : Nat)
    (argument : List Char) :
    Keyword.ofWord? ((Line.mk number (keyword.row argument)).words.headD []) = some keyword := by
  rw [Line.words, words_row]
  exact Keyword.ofWord?_text starts

theorem StyleChange.read_row {change : StyleChange} (printable : change.Printable) (number : Nat) :
    (Line.mk number change.row).read = .ok (Line.statement (.act (.style change))) := by
  cases change with
  | background color =>
      simp only [StyleChange.row, Line.read, ofWord?_row .background rfl,
        wordArgument_row _ _ printable]
      rfl
  | foreground color =>
      simp only [StyleChange.row, Line.read, ofWord?_row .foreground rfl,
        wordArgument_row _ _ printable]
      rfl
  | font family =>
      simp only [StyleChange.row, Line.read, ofWord?_row .font rfl,
        fontArgument_row]
      rfl
  | fontSize size =>
      simp only [StyleChange.row, Line.read, ofWord?_row .fontSize rfl,
        fontSizeArgument_row printable.1 printable.2]
      rfl

theorem Action.read_row {action : Action} (printable : action.Printable) (number : Nat) :
    (Line.mk number action.row).read = .ok (Line.statement (.act action)) := by
  cases action with
  | print text =>
      simp only [Action.row, Line.read, ofWord?_row .print rfl,
        quotedArgument_row]
      rfl
  | image source =>
      simp only [Action.row, Line.read, ofWord?_row .image rfl,
        quotedArgument_row]
      rfl
  | setFlag name =>
      simp only [Action.row, Line.read, ofWord?_row .set rfl,
        wordArgument_row _ _ printable]
      rfl
  | unsetFlag name =>
      simp only [Action.row, Line.read, ofWord?_row .unset rfl,
        wordArgument_row _ _ printable]
      rfl
  | addItem name =>
      simp only [Action.row, Line.read, ofWord?_row .add rfl,
        wordArgument_row _ _ printable]
      rfl
  | removeItem name =>
      simp only [Action.row, Line.read, ofWord?_row .remove rfl,
        wordArgument_row _ _ printable]
      rfl
  | style change => exact StyleChange.read_row printable number

namespace Statement.Head

theorem read_row (head : Statement.Head) (printable : head.Printable) (number : Nat) :
    (Line.mk number head.row).read = .ok (Line.statement (head.placed number)) := by
  cases head with
  | act action => exact Action.read_row printable number
  | go target line =>
      simp only [Head.row, Line.read, ofWord?_row .go rfl,
        wordArgument_row _ _ printable]
      rfl
  | choice label =>
      simp only [Head.row, Line.read, ofWord?_row .choice rfl,
        quotedArgument_row]
      rfl
  | branch condition =>
      have argument := conditionArgument_row printable number
      rw [Head.row] at argument ⊢
      simp only [Line.read, ofWord?_row .branch rfl, argument]
      rfl

theorem exists_row (head : Statement.Head) :
    ∃ (keyword : Keyword) (argument : List Char),
      keyword.starts = true ∧ head.row = keyword.row argument := by
  cases head with
  | act action =>
      cases action with
      | style change => cases change <;> exact ⟨_, _, rfl, rfl⟩
      | _ => exact ⟨_, _, rfl, rfl⟩
  | _ => exact ⟨_, _, rfl, rfl⟩

theorem startsWith_row (head : Statement.Head) (number : Nat) :
    (Line.mk number head.row).startsWith "else" = false ∧
      (Line.mk number head.row).startsWith "end" = false ∧
      (Line.mk number head.row).startsWith "scene" = false := by
  obtain ⟨keyword, argument, starts, same⟩ := head.exists_row
  rw [same]
  exact startsWith_statement starts number argument

end Statement.Head

theorem isHeader_header (number : Nat) (id : List Char) :
    (Line.mk number (Keyword.scene.row id)).isHeader = true := by
  have starts : (Line.mk number (Keyword.scene.row id)).startsWith "scene" = true := by
    have letters : ((Keyword.scene.row id).zip "scene".toList).all
        (fun pair => sameLetter pair.1 pair.2) = true := rfl
    have long : byteSize "scene".toList ≤ byteSize (Keyword.scene.row id) := by
      rw [Keyword.row, byteSize_append]
      exact Nat.le_add_right _ _
    rw [Line.startsWith, startsWithKeyword, letters, decide_eq_true long]
    rfl
  have behind : dropBytes? 5 (Keyword.scene.row id) = some (' ' :: id) := rfl
  rw [Line.isHeader, starts, behind]
  rfl

end SceneScript
