import SceneScript.Proofs.Text.Words
import SceneScript.Script.Line
import SceneScript.Text.Quoted

/-!
# Lines that scanning leaves as they are

A tidy line has something at both ends, no comment and no line feed. Tidy lines that are written
under one another are scanned as the same lines, numbered one by one.
-/

namespace SceneScript

open SceneScript.Text

set_option autoImplicit false

def Text.unlines (rows : List (List Char)) : List Char :=
  rows.flatMap (· ++ ['\n'])

/-- A row that is a line without comment and outer blanks already. -/
structure Tidy (row : List Char) : Prop where
  single : '\n' ∉ row
  bare : stripComment row = row
  first : ∃ c, row.head? = some c ∧ isBlank c = false
  last : ∃ c, row.getLast? = some c ∧ isBlank c = false

theorem Tidy.trim_eq {row : List Char} (tidy : Tidy row) : trim row = row := by
  obtain ⟨c, first, solid⟩ := tidy.first
  obtain ⟨d, last, closed⟩ := tidy.last
  have start : trimStart row = row := by
    obtain ⟨rest, rfl⟩ := List.head?_eq_some_iff.1 first
    simp [trimStart, solid]
  have finish : trimEnd row = row := by
    obtain ⟨front, rfl⟩ := List.getLast?_eq_some_iff.1 last
    simp [trimEnd, closed]
  rw [trim, start, finish]

theorem Tidy.ofRaw {row : List Char} (tidy : Tidy row) (number : Nat) :
    Line.ofRaw? row number = some ⟨number, row⟩ := by
  obtain ⟨c, first, -⟩ := tidy.first
  have some : row ≠ [] := by
    rintro rfl
    cases first
  simp [Line.ofRaw?, tidy.bare, tidy.trim_eq, some]

theorem Tidy.dropReturn_eq {row : List Char} (tidy : Tidy row) : dropReturn row = row := by
  obtain ⟨d, last, closed⟩ := tidy.last
  rw [dropReturn, if_neg]
  intro returned
  rw [last, Option.some.injEq] at returned
  rw [returned] at closed
  exact absurd closed (by decide)

theorem lines_unlines {rows : List (List Char)} (tidy : ∀ row ∈ rows, Tidy row) :
    lines (unlines rows) = rows := by
  induction rows with
  | nil => rfl
  | cons row rest ih =>
      have head := tidy row (by simp)
      have later := ih fun other member => tidy other (by simp [member])
      have split : unlines (row :: rest) = row ++ '\n' :: unlines rest := by
        simp [unlines]
      rw [lines] at later
      rw [lines, split, List.splitOn_append_cons_self_of_not_mem head.single]
      obtain ⟨next, others, pieces⟩ :=
        List.exists_cons_of_ne_nil (List.splitOn_ne_nil '\n' (unlines rest))
      rw [pieces] at later ⊢
      rw [endLines, head.dropReturn_eq, later]

def Line.numberFrom (first : Nat) : List (List Char) → List Line
  | [] => []
  | row :: rest => ⟨first, row⟩ :: numberFrom (first + 1) rest

theorem Line.numberFrom_append (first : Nat) (rows others : List (List Char)) :
    numberFrom first (rows ++ others) =
      numberFrom first rows ++ numberFrom (first + rows.length) others := by
  induction rows generalizing first with
  | nil => rfl
  | cons row rest ih =>
      simp only [List.cons_append, numberFrom, ih, List.length_cons]
      rw [Nat.add_assoc, Nat.add_comm 1]

theorem Line.scan_unlines {rows : List (List Char)} (tidy : ∀ row ∈ rows, Tidy row) :
    Line.scan (unlines rows) = numberFrom 1 rows := by
  rw [scan, lines_unlines tidy]
  generalize 1 = first
  induction rows generalizing first with
  | nil => rfl
  | cons row rest ih =>
      have head := (tidy row (by simp)).ofRaw first
      have later := ih (fun other member => tidy other (by simp [member])) (first + 1)
      simp only [List.zipIdx_cons, List.filterMap_cons, head, numberFrom]
      rw [later]

/-- Text that stays on its line and is neither quoted nor a comment. -/
def Plain (text : List Char) : Prop :=
  ∀ c ∈ text, c ≠ '\n' ∧ c ≠ ';' ∧ c ≠ '"' ∧ c ≠ '\\'

theorem stripFrom_bare {text : List Char} (bare : ∀ c ∈ text, c ≠ ';' ∧ c ≠ '"' ∧ c ≠ '\\')
    (quoted : Bool) (rest : List Char) :
    stripFrom ⟨quoted, false⟩ (text ++ rest) = text ++ stripFrom ⟨quoted, false⟩ rest := by
  induction text with
  | nil => rfl
  | cons c text ih =>
      obtain ⟨notComment, notQuote, notSlash⟩ := bare c (by simp)
      have same : QuoteMode.next ⟨quoted, false⟩ c = ⟨quoted, false⟩ := by
        simp [QuoteMode.next, notQuote, notSlash]
      rw [List.cons_append, stripFrom, same, ih fun d member => bare d (by simp [member])]
      simp [notComment]

theorem stripFrom_plain {text : List Char} (plain : Plain text) (quoted : Bool) (rest : List Char) :
    stripFrom ⟨quoted, false⟩ (text ++ rest) = text ++ stripFrom ⟨quoted, false⟩ rest :=
  stripFrom_bare (fun c member => (plain c member).2) quoted rest

-- Inside the quotes the scan is behind no backslash at the front of every escaped character.
theorem stripFrom_escape (value rest : List Char) :
    stripFrom ⟨true, false⟩ (Quoted.escape value ++ rest) =
      Quoted.escape value ++ stripFrom ⟨true, false⟩ rest := by
  induction value with
  | nil => rfl
  | cons c value ih =>
      by_cases feed : c = '\n'
      · simp [Quoted.escape, feed, stripFrom, QuoteMode.next, QuoteMode.isOpen, ih]
      by_cases tab : c = '\t'
      · simp [Quoted.escape, tab, stripFrom, QuoteMode.next, QuoteMode.isOpen, ih]
      by_cases special : c = '\\' ∨ c = '"'
      · rcases special with rfl | rfl <;>
          simp [Quoted.escape, stripFrom, QuoteMode.next, QuoteMode.isOpen, ih]
      · have notSlash : c ≠ '\\' := fun same => special (Or.inl same)
        have notQuote : c ≠ '"' := fun same => special (Or.inr same)
        simp [Quoted.escape, feed, tab, notSlash, notQuote, stripFrom, QuoteMode.next,
          QuoteMode.isOpen, ih]

theorem stripComment_write (value : List Char) :
    stripComment (Quoted.write value) = Quoted.write value := by
  have inside := stripFrom_escape value ['"']
  simp only [stripFrom, QuoteMode.isOpen] at inside
  simp [stripComment, Quoted.write, stripFrom, QuoteMode.start, QuoteMode.next,
    QuoteMode.isOpen, inside]

theorem feed_not_mem_escape (value : List Char) : '\n' ∉ Quoted.escape value := by
  induction value with
  | nil => simp [Quoted.escape]
  | cons c value ih =>
      simp only [Quoted.escape]
      split
      · simp [ih]
      · split
        · simp [ih]
        · split
          · rename_i special
            rcases special with rfl | rfl <;> simp [ih]
          · rename_i notFeed _ _
            simp [ih, Ne.symm notFeed]

end SceneScript
