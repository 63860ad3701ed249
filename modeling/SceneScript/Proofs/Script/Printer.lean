import SceneScript.Proofs.Condition.Rendering
import SceneScript.Proofs.Script.Tidy
import SceneScript.Proofs.Text.Numeral
import SceneScript.Script.Parser

/-!
# Writing scripts

A scene is written as its header and its statements, one line each; a block is closed by `end`, and
a branch always has its `else`. Texts, labels and fonts are quoted, everything else stands as it is.
What can be written is what a line can hold: bare words without blanks, quotes, backslashes and
semicolons, and conditions that can be read back. Every line of a printed program is tidy.
-/

namespace SceneScript

open SceneScript.Text

set_option autoImplicit false

def Keyword.row (keyword : Keyword) (argument : List Char) : List Char :=
  keyword.text.toList ++ ' ' :: argument

def StyleChange.row : StyleChange → List Char
  | background color => Keyword.background.row color.toList
  | foreground color => Keyword.foreground.row color.toList
  | font family => Keyword.font.row (Quoted.write family.toList)
  | fontSize size => Keyword.fontSize.row (toString size.toInt).toList

def Action.row : Action → List Char
  | print text => Keyword.print.row (Quoted.write text.toList)
  | image source => Keyword.image.row (Quoted.write source.toList)
  | setFlag name => Keyword.set.row name.toList
  | unsetFlag name => Keyword.unset.row name.toList
  | addItem name => Keyword.add.row name.toList
  | removeItem name => Keyword.remove.row name.toList
  | style change => change.row

def Statement.Head.row : Statement.Head → List Char
  | act action => action.row
  | go target _ => Keyword.go.row target.toList
  | choice label => Keyword.choice.row (Quoted.write label.toList)
  | branch condition => Keyword.branch.row (condition.render.toList ++ ' ' :: "then".toList)

mutual

def Statement.rows : Statement → List (List Char)
  | .act action => [Statement.Head.row (.act action)]
  | .go target line => [Statement.Head.row (.go target line)]
  | .choice label body =>
    Statement.Head.row (.choice label) :: (Block.rows body ++ [Keyword.done.text.toList])
  | .branch condition thenBody elseBody =>
    Statement.Head.row (.branch condition) :: (Block.rows thenBody ++
      Keyword.otherwise.text.toList :: (Block.rows elseBody ++ [Keyword.done.text.toList]))

def Block.rows : List Statement → List (List Char)
  | [] => []
  | statement :: rest => statement.rows ++ Block.rows rest

end

def Scene.rows (scene : Scene) : List (List Char) :=
  Keyword.scene.row scene.id.toList :: Block.rows scene.body

def Program.print (program : Program) : String :=
  String.ofList (unlines (program.scenes.toList.flatMap Scene.rows))

/-- A word that can stand in a line without quotes. -/
structure IsBare (word : String) : Prop where
  some : word.toList ≠ []
  solid : ∀ c ∈ word.toList, isBlank c = false ∧ c ≠ ';' ∧ c ≠ '"' ∧ c ≠ '\\'

/-- A condition whose names are names in a line with a `then`, and that can be read back. -/
structure Condition.Printable (condition : Condition) : Prop where
  named : ∀ name ∈ condition.names, Condition.IsName name
  other : ∀ name ∈ condition.names, sameWord name.toList "then".toList = false
  low : condition.height ≤ Condition.depthLimit
  room : condition.nesting ≤ Condition.depthLimit

/-- The lowest 64-bit number has no magnitude that fits, so it cannot be read. -/
def StyleChange.Printable : StyleChange → Prop
  | background color => IsBare color
  | foreground color => IsBare color
  | font _ => True
  | fontSize size => -(signedLimit : Int) < size.toInt ∧ size.toInt < signedLimit

def Action.Printable : Action → Prop
  | print _ => True
  | image _ => True
  | setFlag name => IsBare name
  | unsetFlag name => IsBare name
  | addItem name => IsBare name
  | removeItem name => IsBare name
  | style change => change.Printable

def Statement.Head.Printable : Statement.Head → Prop
  | act action => action.Printable
  | go target _ => IsBare target
  | choice _ => True
  | branch condition => condition.Printable

mutual

def Statement.Printable : Statement → Prop
  | .act action => action.Printable
  | .go target _ => IsBare target
  | .choice _ body => Block.Printable body
  | .branch condition thenBody elseBody =>
    condition.Printable ∧ Block.Printable thenBody ∧ Block.Printable elseBody

def Block.Printable : List Statement → Prop
  | [] => True
  | statement :: rest => statement.Printable ∧ Block.Printable rest

end

def Scene.Printable (scene : Scene) : Prop :=
  IsBare scene.id ∧ Block.Printable scene.body

/-- A program that can be written down. Its ids are distinct as it is. -/
def Program.Printable (program : Program) : Prop :=
  ∀ scene ∈ program.scenes.toList, scene.Printable

instance (word : String) : Decidable (IsBare word) :=
  decidable_of_iff (word.toList ≠ [] ∧ word.toList.all
    (fun c => decide (isBlank c = false ∧ c ≠ ';' ∧ c ≠ '"' ∧ c ≠ '\\')) = true)
    ⟨fun both => ⟨both.1, fun c member => of_decide_eq_true (List.all_eq_true.1 both.2 c member)⟩,
      fun bare => ⟨bare.some,
        List.all_eq_true.2 fun c member => decide_eq_true (bare.solid c member)⟩⟩

instance (condition : Condition) : Decidable condition.Printable :=
  decidable_of_iff ((∀ name ∈ condition.names, Condition.IsName name) ∧
    (∀ name ∈ condition.names, sameWord name.toList "then".toList = false) ∧
    condition.height ≤ Condition.depthLimit ∧ condition.nesting ≤ Condition.depthLimit)
    ⟨fun all => ⟨all.1, all.2.1, all.2.2.1, all.2.2.2⟩,
      fun sound => ⟨sound.named, sound.other, sound.low, sound.room⟩⟩

instance : (change : StyleChange) → Decidable change.Printable
  | .background color => inferInstanceAs (Decidable (IsBare color))
  | .foreground color => inferInstanceAs (Decidable (IsBare color))
  | .font _ => inferInstanceAs (Decidable True)
  | .fontSize size =>
    inferInstanceAs (Decidable (-(signedLimit : Int) < size.toInt ∧ size.toInt < signedLimit))

instance : (action : Action) → Decidable action.Printable
  | .print _ => inferInstanceAs (Decidable True)
  | .image _ => inferInstanceAs (Decidable True)
  | .setFlag name => inferInstanceAs (Decidable (IsBare name))
  | .unsetFlag name => inferInstanceAs (Decidable (IsBare name))
  | .addItem name => inferInstanceAs (Decidable (IsBare name))
  | .removeItem name => inferInstanceAs (Decidable (IsBare name))
  | .style change => inferInstanceAs (Decidable change.Printable)

mutual

def Statement.decidePrintable : (statement : Statement) → Decidable statement.Printable
  | .act action => inferInstanceAs (Decidable action.Printable)
  | .go target _ => inferInstanceAs (Decidable (IsBare target))
  | .choice _ body => Block.decidePrintable body
  | .branch condition thenBody elseBody =>
    have := Block.decidePrintable thenBody
    have := Block.decidePrintable elseBody
    inferInstanceAs (Decidable
      (condition.Printable ∧ Block.Printable thenBody ∧ Block.Printable elseBody))

def Block.decidePrintable : (block : List Statement) → Decidable (Block.Printable block)
  | [] => inferInstanceAs (Decidable True)
  | statement :: rest =>
    have := Statement.decidePrintable statement
    have := Block.decidePrintable rest
    inferInstanceAs (Decidable (statement.Printable ∧ Block.Printable rest))

end

instance (scene : Scene) : Decidable scene.Printable :=
  have := Block.decidePrintable scene.body
  inferInstanceAs (Decidable (IsBare scene.id ∧ Block.Printable scene.body))

theorem Keyword.isWordChar_of_mem_text (keyword : Keyword) :
    ∀ c ∈ keyword.text.toList, isWordChar c = true := by
  apply List.all_eq_true.1
  cases keyword <;> decide

theorem Keyword.text_ne_nil (keyword : Keyword) : keyword.text.toList ≠ [] := by
  cases keyword <;> decide

theorem plain_of_wordChars {text : List Char} (solid : ∀ c ∈ text, isWordChar c = true) :
    Plain text := by
  intro c member
  have word := solid c member
  exact ⟨ne_of_isWordChar word (by decide), ne_of_isWordChar word (by decide),
    ne_of_isWordChar word (by decide), ne_of_isWordChar word (by decide)⟩

theorem words_row (keyword : Keyword) (argument : List Char) :
    Text.words (keyword.row argument) = keyword.text.toList :: Text.words argument := by
  have solid : ∀ c ∈ keyword.text.toList, isBlank c = false := fun c member =>
    isBlank_of_isWordChar (keyword.isWordChar_of_mem_text c member)
  rw [Keyword.row, words_append_blank (by decide), words_of_solid solid keyword.text_ne_nil]
  rfl

theorem tidy_row (keyword : Keyword) {argument : List Char} (single : '\n' ∉ argument)
    (bare : stripComment argument = argument)
    (last : ∃ c, argument.getLast? = some c ∧ isBlank c = false) : Tidy (keyword.row argument) := by
  have solid := keyword.isWordChar_of_mem_text
  have plain : Plain (keyword.text.toList ++ [' ']) := by
    intro c member
    rcases List.mem_append.1 member with inText | blank
    · exact plain_of_wordChars solid c inText
    · rw [List.mem_singleton.1 blank]
      decide
  have split : keyword.row argument = keyword.text.toList ++ [' '] ++ argument := by
    simp [Keyword.row]
  refine ⟨?_, ?_, ?_, ?_⟩
  · rw [split, List.mem_append]
    rintro (inside | inside)
    · exact (plain _ inside).1 rfl
    · exact single inside
  · rw [split, stripComment, QuoteMode.start, stripFrom_plain plain]
    exact congrArg _ bare
  · obtain ⟨c, rest, text⟩ := List.exists_cons_of_ne_nil keyword.text_ne_nil
    refine ⟨c, by simp [Keyword.row, text], isBlank_of_isWordChar (solid c (by simp [text]))⟩
  · obtain ⟨c, ends, closed⟩ := last
    refine ⟨c, ?_, closed⟩
    rw [split, List.getLast?_append, ends]
    rfl

theorem IsBare.plain {word : String} (bare : IsBare word) : Plain word.toList := by
  intro c member
  obtain ⟨solid, notComment, notQuote, notSlash⟩ := bare.solid c member
  refine ⟨?_, notComment, notQuote, notSlash⟩
  rintro rfl
  exact absurd solid (by decide)

theorem IsBare.words_eq {word : String} (bare : IsBare word) :
    Text.words word.toList = [word.toList] :=
  words_of_solid (fun c member => (bare.solid c member).1) bare.some

theorem stripComment_plain {text : List Char} (plain : Plain text) : stripComment text = text := by
  have kept := stripFrom_plain plain false []
  simpa [stripComment, QuoteMode.start, stripFrom] using kept

theorem tidy_plain_row (keyword : Keyword) {argument : List Char} (plain : Plain argument)
    (last : ∃ c, argument.getLast? = some c ∧ isBlank c = false) : Tidy (keyword.row argument) :=
  tidy_row keyword (fun member => (plain _ member).1 rfl) (stripComment_plain plain) last

theorem tidy_bare_row (keyword : Keyword) {word : String} (bare : IsBare word) :
    Tidy (keyword.row word.toList) := by
  apply tidy_plain_row keyword bare.plain
  exact ⟨_, List.getLast?_eq_some_getLast bare.some, (bare.solid _ (List.getLast_mem bare.some)).1⟩

theorem tidy_quoted_row (keyword : Keyword) (value : List Char) :
    Tidy (keyword.row (Quoted.write value)) := by
  refine tidy_row keyword ?_ (stripComment_write value) ⟨'"', ?_, by decide⟩
  · simp [Quoted.write, feed_not_mem_escape]
  · exact List.getLast?_concat

theorem isBare_toString (number : Int) : IsBare (toString number) := by
  have word : ∀ c ∈ Nat.toDigits 10 number.natAbs, isWordChar c = true := fun c member =>
    isWordChar_of_isDigit (isDigit_of_mem_toDigits member)
  have solid : ∀ c, isWordChar c = true → isBlank c = false ∧ c ≠ ';' ∧ c ≠ '"' ∧ c ≠ '\\' :=
    fun c member => ⟨isBlank_of_isWordChar member, ne_of_isWordChar member (by decide),
      ne_of_isWordChar member (by decide), ne_of_isWordChar member (by decide)⟩
  have text := toList_toString_int number
  by_cases negative : number < 0
  · rw [if_pos negative] at text
    refine ⟨by rw [text]; exact List.cons_ne_nil _ _, ?_⟩
    rw [text]
    intro c member
    rcases List.mem_cons.1 member with rfl | digit
    · decide
    · exact solid c (word c digit)
  · rw [if_neg negative] at text
    refine ⟨by rw [text]; exact Nat.toDigits_ne_nil, ?_⟩
    rw [text]
    exact fun c member => solid c (word c member)

theorem Plain.append {left right : List Char} (first : Plain left) (second : Plain right) :
    Plain (left ++ right) := by
  intro c member
  rcases List.mem_append.1 member with inLeft | inRight
  · exact first c inLeft
  · exact second c inRight

theorem Plain.cons {c : Char} {text : List Char}
    (head : c ≠ '\n' ∧ c ≠ ';' ∧ c ≠ '"' ∧ c ≠ '\\') (rest : Plain text) : Plain (c :: text) := by
  intro d member
  rcases List.mem_cons.1 member with rfl | inText
  · exact head
  · exact rest d inText

theorem plain_operator {left right word : List Char} (first : Plain left) (middle : Plain word)
    (second : Plain right) :
    Plain ('(' :: (left ++ ' ' :: (word ++ ' ' :: (right ++ [')'])))) := by
  have closing : Plain [')'] := .cons (by decide) (by simp [Plain])
  have behind : Plain (word ++ ' ' :: (right ++ [')'])) :=
    middle.append (.cons (by decide) (second.append closing))
  exact .cons (by decide) (first.append (.cons (by decide) behind))

theorem plain_reserved {word : String} (member : word ∈ Condition.reserved) : Plain word.toList :=
  plain_of_wordChars (Condition.isWordChar_of_reserved member)

theorem Condition.plain_render {condition : Condition}
    (named : ∀ name ∈ condition.names, Condition.IsName name) : Plain condition.render.toList := by
  induction condition with
  | conj left right leftIh rightIh =>
      simp only [names, List.mem_append, or_imp, forall_and] at named
      rw [toList_render_conj]
      exact plain_operator (leftIh named.1) (plain_reserved (by decide)) (rightIh named.2)
  | disj left right leftIh rightIh =>
      simp only [names, List.mem_append, or_imp, forall_and] at named
      rw [toList_render_disj]
      exact plain_operator (leftIh named.1) (plain_reserved (by decide)) (rightIh named.2)
  | neg inner ih =>
      have closing : Plain [')'] := .cons (by decide) (by simp [Plain])
      have word : Plain "not".toList := plain_reserved (by decide)
      have behind := (ih named).append closing
      rw [toList_render_neg]
      exact .cons (by decide) (word.append (.cons (by decide) behind))
  | has name =>
      rw [toList_render_has]
      exact (plain_reserved (by decide)).append
        (.cons (by decide) (plain_of_wordChars (named name (by simp [names])).solid))
  | ident name => exact plain_of_wordChars (named name (by simp [names])).solid
  | literal value =>
      cases value with
      | false => exact plain_reserved (show "false" ∈ reserved by decide)
      | true => exact plain_reserved (show "true" ∈ reserved by decide)

theorem StyleChange.tidy_row {change : StyleChange} (printable : change.Printable) :
    Tidy change.row := by
  cases change with
  | background color => exact tidy_bare_row _ printable
  | foreground color => exact tidy_bare_row _ printable
  | font family => exact tidy_quoted_row _ _
  | fontSize size => exact tidy_bare_row _ (isBare_toString _)

theorem Action.tidy_row {action : Action} (printable : action.Printable) : Tidy action.row := by
  cases action with
  | print text => exact tidy_quoted_row _ _
  | image source => exact tidy_quoted_row _ _
  | setFlag name => exact tidy_bare_row _ printable
  | unsetFlag name => exact tidy_bare_row _ printable
  | addItem name => exact tidy_bare_row _ printable
  | removeItem name => exact tidy_bare_row _ printable
  | style change => exact StyleChange.tidy_row printable

theorem Statement.Head.tidy_row {head : Statement.Head} (printable : head.Printable) :
    Tidy head.row := by
  cases head with
  | act action => exact Action.tidy_row printable
  | go target line => exact tidy_bare_row _ printable
  | choice label => exact tidy_quoted_row _ _
  | branch condition =>
      refine tidy_plain_row _ ?_ ⟨'n', by simp, by decide⟩
      exact (Condition.plain_render printable.named).append
        (.cons (by decide) (plain_of_wordChars (List.all_eq_true.1 (by decide))))

section Rows

variable {Good : List Char → Prop}

mutual

theorem Statement.forall_rows (heads : ∀ head : Statement.Head, head.Printable → Good head.row)
    (otherwise : Good Keyword.otherwise.text.toList) (done : Good Keyword.done.text.toList)
    (statement : Statement) (printable : statement.Printable) :
    ∀ row ∈ statement.rows, Good row := by
  cases statement with
  | act action => simpa [Statement.rows] using heads (.act action) printable
  | go target line => simpa [Statement.rows] using heads (.go target line) printable
  | choice label body =>
      have inside := Block.forall_rows heads otherwise done body printable
      simpa [Statement.rows, or_imp, forall_and] using ⟨heads (.choice label) trivial, inside, done⟩
  | branch condition thenBody elseBody =>
      obtain ⟨sound, thens, elses⟩ := printable
      have first := Block.forall_rows heads otherwise done thenBody thens
      have second := Block.forall_rows heads otherwise done elseBody elses
      simpa [Statement.rows, or_imp, forall_and] using
        ⟨heads (.branch condition) sound, first, otherwise, second, done⟩

/-- What holds of every line that starts a statement, of `else` and of `end` holds of all lines. -/
theorem Block.forall_rows (heads : ∀ head : Statement.Head, head.Printable → Good head.row)
    (otherwise : Good Keyword.otherwise.text.toList) (done : Good Keyword.done.text.toList)
    (block : List Statement) (printable : Block.Printable block) :
    ∀ row ∈ Block.rows block, Good row := by
  cases block with
  | nil => simp [Block.rows]
  | cons statement rest =>
      have first := Statement.forall_rows heads otherwise done statement printable.1
      have later := Block.forall_rows heads otherwise done rest printable.2
      simpa [Block.rows, or_imp, forall_and] using ⟨first, later⟩

end

end Rows

theorem Block.tidy_rows {block : Block} (printable : Block.Printable block) :
    ∀ row ∈ Block.rows block, Tidy row := by
  apply Block.forall_rows
  · intro head sound
    exact Statement.Head.tidy_row sound
  · exact ⟨by decide, by decide, ⟨'e', by decide⟩, ⟨'e', by decide⟩⟩
  · exact ⟨by decide, by decide, ⟨'e', by decide⟩, ⟨'d', by decide⟩⟩
  · exact printable

theorem Scene.tidy_rows {scene : Scene} (printable : scene.Printable) :
    ∀ row ∈ scene.rows, Tidy row := by
  have header : Tidy (Keyword.scene.row scene.id.toList) := tidy_bare_row _ printable.1
  simpa [Scene.rows, or_imp, forall_and] using ⟨header, Block.tidy_rows printable.2⟩

end SceneScript
