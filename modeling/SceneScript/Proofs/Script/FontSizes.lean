import Mathlib.Algebra.Group.Int.Defs
import SceneScript.Proofs.Script.Comments
import SceneScript.Proofs.Script.Headers
import SceneScript.Proofs.Script.Rereading
import SceneScript.Proofs.Script.Sections

/-!
# Numbers at the start of a word

`Numeral` cuts a text into blanks, a sign, a longest run of digits and the rest. The reader gives
the signed value of the digits if there are any and the value is a signed 64-bit word, with one
exception: it wants the magnitude to be such a word as well, and the magnitude of the lowest word is
not. Every other word is therefore read back from a line that sets the font size, whatever follows
its digits.
-/

namespace SceneScript

open SceneScript.Text

set_option autoImplicit false

namespace Text

theorem exists_toDigits (magnitude : Nat) :
    ∃ c rest, Nat.toDigits 10 magnitude = c :: rest ∧ c.isDigit = true := by
  obtain ⟨c, rest, cut⟩ := List.exists_cons_of_ne_nil
    (Nat.toDigits_ne_nil : Nat.toDigits 10 magnitude ≠ [])
  have member : c ∈ Nat.toDigits 10 magnitude := by simp [cut]
  exact ⟨c, rest, cut, isDigit_of_mem_toDigits member⟩

/-- The parts of a text that starts with a number, as far as it does. -/
structure Numeral (text : List Char) where
  blanks : List Char
  sign : List Char
  digits : List Char
  rest : List Char
  whole : text = blanks ++ (sign ++ (digits ++ rest))
  white : ∀ c ∈ blanks, isBlank c = true
  solid : ∀ c ∈ (sign ++ (digits ++ rest)).head?, isBlank c = false
  signed : sign = [] ∨ sign = ['+'] ∨ sign = ['-']
  unsigned : sign = [] → ∀ c ∈ (digits ++ rest).head?, c ≠ '+' ∧ c ≠ '-'
  decimal : ∀ c ∈ digits, c.isDigit = true
  maximal : ∀ c ∈ rest.head?, c.isDigit = false

namespace Numeral

variable {text : List Char}

def magnitude (numeral : Numeral text) : Nat :=
  Nat.ofDigitChars 10 numeral.digits 0

def value (numeral : Numeral text) : Int :=
  if numeral.sign = ['-'] then -(numeral.magnitude : Int) else numeral.magnitude

theorem digitsValue_digits (numeral : Numeral text) :
    digitsValue numeral.digits = numeral.magnitude := by
  rw [magnitude, Nat.ofDigitChars_eq_foldl]
  rfl

theorem trimStart_eq (numeral : Numeral text) :
    trimStart text = numeral.sign ++ (numeral.digits ++ numeral.rest) := by
  have kept : (numeral.sign ++ (numeral.digits ++ numeral.rest)).dropWhile isBlank =
      numeral.sign ++ (numeral.digits ++ numeral.rest) := by
    have solid := numeral.solid
    cases split : numeral.sign ++ (numeral.digits ++ numeral.rest) with
    | nil => rfl
    | cons c behind =>
        rw [split] at solid
        rw [List.dropWhile_cons_of_neg (by simp [solid c rfl])]
  calc trimStart text
      = trimStart (numeral.blanks ++ (numeral.sign ++ (numeral.digits ++ numeral.rest))) :=
        congrArg trimStart numeral.whole
    _ = numeral.sign ++ (numeral.digits ++ numeral.rest) := by
        rw [trimStart, List.dropWhile_append_of_pos numeral.white, kept]

theorem splitSign_eq (numeral : Numeral text) :
    splitSign (trimStart text) =
      (decide (numeral.sign = ['-']), numeral.digits ++ numeral.rest) := by
  rw [numeral.trimStart_eq]
  rcases numeral.signed with none | plus | minus
  · have plain := numeral.unsigned none
    rw [none, List.nil_append]
    cases split : numeral.digits ++ numeral.rest with
    | nil => rfl
    | cons c behind =>
        rw [split] at plain
        obtain ⟨notPlus, notMinus⟩ := plain c rfl
        simp [splitSign, notPlus, notMinus]
  · rw [plus]
    rfl
  · rw [minus]
    rfl

theorem takeWhile_eq (numeral : Numeral text) :
    (numeral.digits ++ numeral.rest).takeWhile Char.isDigit = numeral.digits := by
  have ended : numeral.rest.takeWhile Char.isDigit = [] := by
    have stops := numeral.maximal
    cases split : numeral.rest with
    | nil => rfl
    | cons c behind =>
        rw [split] at stops
        rw [List.takeWhile_cons_of_neg (by simp [stops c rfl])]
  rw [List.takeWhile_append_of_pos numeral.decimal, ended, List.append_nil]

theorem leadingInt?_eq (numeral : Numeral text) :
    leadingInt? text =
      if numeral.digits = [] then none
      else if numeral.magnitude < signedLimit then some (Int64.ofInt numeral.value) else none := by
  simp only [leadingInt?, numeral.splitSign_eq, numeral.takeWhile_eq, numeral.digitsValue_digits,
    List.isEmpty_iff, decide_eq_true_eq, value]

theorem magnitude_lt_iff (numeral : Numeral text) :
    numeral.magnitude < signedLimit ↔ -2 ^ 63 < numeral.value ∧ numeral.value ≤ 2 ^ 63 - 1 := by
  rw [value, signedLimit]
  split <;> omega

theorem leadingInt?_eq_some_iff (numeral : Numeral text) {n : Int64} :
    leadingInt? text = some n ↔ numeral.digits ≠ [] ∧
      (-2 ^ 63 < numeral.value ∧ numeral.value ≤ 2 ^ 63 - 1) ∧ n.toInt = numeral.value := by
  rw [numeral.leadingInt?_eq, ← numeral.magnitude_lt_iff]
  by_cases none : numeral.digits = []
  · simp [none]
  rw [if_neg none]
  by_cases fits : numeral.magnitude < signedLimit
  · obtain ⟨low, high⟩ := numeral.magnitude_lt_iff.1 fits
    rw [if_pos fits, Option.some.injEq]
    constructor
    · rintro rfl
      exact ⟨none, fits, Int64.toInt_ofInt_of_le (by omega) (by omega)⟩
    · rintro ⟨-, -, same⟩
      rw [← same, Int64.ofInt_toInt]
  · rw [if_neg fits]
    simp [fits]

theorem digits_ne_nil_of_value (numeral : Numeral text) (some : numeral.value ≠ 0) :
    numeral.digits ≠ [] := by
  intro none
  apply some
  have zero : numeral.magnitude = 0 := by rw [magnitude, none, Nat.ofDigitChars_nil]
  rw [value, zero]
  simp

/-- Of the values of signed 64-bit words, the lowest is the only one that is not given. -/
theorem leadingInt?_exact_iff (numeral : Numeral text) :
    (∀ n : Int64, leadingInt? text = some n ↔ numeral.digits ≠ [] ∧
      (-2 ^ 63 ≤ numeral.value ∧ numeral.value ≤ 2 ^ 63 - 1) ∧ n.toInt = numeral.value) ↔
      numeral.value ≠ -2 ^ 63 := by
  constructor
  · intro exact lowest
    have filled := numeral.digits_ne_nil_of_value (by omega)
    have least : Int64.minValue.toInt = numeral.value := by rw [lowest, Int64.toInt_minValue]
    have given := (exact Int64.minValue).2 ⟨filled, by omega, least⟩
    have above := (numeral.leadingInt?_eq_some_iff.1 given).2.1
    omega
  · intro other n
    rw [numeral.leadingInt?_eq_some_iff]
    have range : -2 ^ 63 < numeral.value ↔ -2 ^ 63 ≤ numeral.value := by omega
    rw [range]

def ofTail (blanks sign tail : List Char) (whole : text = blanks ++ (sign ++ tail))
    (white : ∀ c ∈ blanks, isBlank c = true) (solid : ∀ c ∈ (sign ++ tail).head?, isBlank c = false)
    (signed : sign = [] ∨ sign = ['+'] ∨ sign = ['-'])
    (unsigned : sign = [] → ∀ c ∈ tail.head?, c ≠ '+' ∧ c ≠ '-') : Numeral text where
  blanks := blanks
  sign := sign
  digits := tail.takeWhile Char.isDigit
  rest := tail.dropWhile Char.isDigit
  whole := by rwa [List.takeWhile_append_dropWhile]
  white := white
  solid := by rwa [List.takeWhile_append_dropWhile]
  signed := signed
  unsigned := by rwa [List.takeWhile_append_dropWhile]
  decimal := fun c member => List.mem_takeWhile_imp member
  maximal := stops_dropWhile Char.isDigit tail

theorem nonempty_numeral (text : List Char) : Nonempty (Numeral text) := by
  have cut : text = text.takeWhile isBlank ++ text.dropWhile isBlank :=
    List.takeWhile_append_dropWhile.symm
  have white : ∀ c ∈ text.takeWhile isBlank, isBlank c = true :=
    fun c member => List.mem_takeWhile_imp member
  have solid := stops_dropWhile isBlank text
  cases body : text.dropWhile isBlank with
  | nil =>
      rw [body] at cut solid
      exact ⟨ofTail _ [] [] cut white solid (Or.inl rfl) (by simp)⟩
  | cons c tail =>
      rw [body] at cut solid
      by_cases plus : c = '+'
      · subst plus
        exact ⟨ofTail _ ['+'] tail cut white solid (by simp) (by simp)⟩
      by_cases minus : c = '-'
      · subst minus
        exact ⟨ofTail _ ['-'] tail cut white solid (by simp) (by simp)⟩
      · exact ⟨ofTail _ [] (c :: tail) cut white solid (Or.inl rfl) (by simp [plus, minus])⟩

/-- A written number with something behind it that does not go on with its digits. -/
def written (number : Int) (suffix : List Char) (ends : ∀ c ∈ suffix.head?, c.isDigit = false) :
    Numeral ((toString number).toList ++ suffix) where
  blanks := []
  sign := if number < 0 then ['-'] else []
  digits := Nat.toDigits 10 number.natAbs
  rest := suffix
  whole := by
    rw [toList_toString_int]
    split <;> simp
  white := by simp
  solid := by
    intro d first
    obtain ⟨c, others, cut, digit⟩ := exists_toDigits number.natAbs
    split at first
    · cases first
      decide
    · rw [cut] at first
      cases first
      exact isBlank_of_isWordChar (isWordChar_of_isDigit digit)
  signed := by split <;> simp
  unsigned := by
    intro _ d first
    obtain ⟨c, others, cut, digit⟩ := exists_toDigits number.natAbs
    rw [cut] at first
    cases first
    have letter := isWordChar_of_isDigit digit
    exact ⟨ne_of_isWordChar letter (by decide), ne_of_isWordChar letter (by decide)⟩
  decimal := fun c member => isDigit_of_mem_toDigits member
  maximal := ends

theorem digits_written_ne_nil (number : Int) {suffix : List Char}
    (ends : ∀ c ∈ suffix.head?, c.isDigit = false) :
    (written number suffix ends).digits ≠ [] := Nat.toDigits_ne_nil

theorem value_written (number : Int) {suffix : List Char}
    (ends : ∀ c ∈ suffix.head?, c.isDigit = false) :
    (written number suffix ends).value = number := by
  have magnitude : (written number suffix ends).magnitude = number.natAbs :=
    Nat.ofDigitChars_ten_toDigits
  rw [value, magnitude]
  by_cases negative : number < 0
  · have minus : (written number suffix ends).sign = ['-'] := if_pos negative
    rw [if_pos minus]
    omega
  · have none : (written number suffix ends).sign = [] := if_neg negative
    rw [none, if_neg (by simp)]
    omega

theorem leadingInt?_written (n : Int64) {suffix : List Char}
    (ends : ∀ c ∈ suffix.head?, c.isDigit = false) :
    leadingInt? ((toString n.toInt).toList ++ suffix) =
      if n = Int64.minValue then none else some n := by
  have same := value_written n.toInt ends
  by_cases lowest : n = Int64.minValue
  · rw [if_pos lowest, Option.eq_none_iff_forall_ne_some]
    intro found read
    have range := ((written n.toInt suffix ends).leadingInt?_eq_some_iff.1 read).2.1
    rw [same, lowest, Int64.toInt_minValue] at range
    omega
  · rw [if_neg lowest, (written n.toInt suffix ends).leadingInt?_eq_some_iff, same]
    have low := n.le_toInt
    have high := n.toInt_lt
    have other : n.toInt ≠ -2 ^ 63 := by
      rw [← Int64.toInt_minValue]
      intro equal
      exact lowest (Int64.toInt_inj.1 equal)
    exact ⟨digits_written_ne_nil n.toInt ends, ⟨by omega, by omega⟩, rfl⟩

end Numeral

end Text

theorem stripComment_row (keyword : Keyword) (argument : List Char) :
    stripComment (keyword.row argument) = keyword.row (stripComment argument) := by
  have plain : Plain (keyword.text.toList ++ [' ']) :=
    Plain.append (plain_of_wordChars keyword.isWordChar_of_mem_text) (by simp [Plain])
  have split : ∀ argument : List Char,
      keyword.row argument = keyword.text.toList ++ [' '] ++ argument := by simp [Keyword.row]
  rw [split, split, stripComment, stripComment, QuoteMode.start, stripFrom_plain plain]

theorem ofRaw?_row (keyword : Keyword) {word : List Char} (filled : stripComment word ≠ [])
    (solid : ∀ c ∈ stripComment word, isBlank c = false) (number : Nat) :
    Line.ofRaw? (keyword.row word) number =
      some ⟨number, keyword.row (stripComment word)⟩ := by
  have last : ∃ c, (stripComment word).getLast? = some c ∧ isBlank c = false :=
    ⟨_, List.getLast?_eq_some_getLast filled, solid _ (List.getLast_mem filled)⟩
  have single : '\n' ∉ stripComment word := by
    intro member
    exact absurd (solid '\n' member) (by decide)
  have tidy : Tidy (keyword.row (stripComment word)) :=
    tidy_row keyword single (stripFrom_stripFrom .start word) last
  rw [← Line.ofRaw?_normalized, stripComment_row, tidy.trim_eq, tidy.ofRaw]

theorem Nest.step_fontSize (nest : Nest) {line : Line} {word : List Char}
    (spelled : line.keyword? = some .fontSize) (second : line.argument? = some word) :
    nest.step line =
      match leadingInt? word with
      | some size => .ok (nest.push (.act (.style (.fontSize size))), [])
      | none => .error ⟨line.number, .invalidNumber (String.ofList word)⟩ := by
  have statement : line.isStatement = true := by
    rw [Line.isStatement, spelled]
    rfl
  have named : Keyword.ofWord? (line.words.headD []) = some .fontSize := spelled
  rw [step, nest.close?_of_isStatement statement]
  simp only [Line.read, named, Line.fontSizeArgument, second]
  cases leadingInt? word <;> rfl

theorem Line.argument?_row (keyword : Keyword) (number : Nat) {word : List Char}
    (filled : word ≠ []) (solid : ∀ c ∈ word, isBlank c = false) :
    (Line.mk number (keyword.row word)).argument? = some word := by
  rw [argument?, Line.words, words_row, words_of_solid solid filled]
  rfl

/-- What may stand behind the digits in the word of a number: no blank, and no digit in front. -/
structure NumberTail (suffix : List Char) : Prop where
  solid : ∀ c ∈ suffix, isBlank c = false
  ends : ∀ c ∈ suffix.head?, c.isDigit = false

section Sizes

variable {suffix : List Char}

theorem NumberTail.stripComment (tail : NumberTail suffix) : NumberTail (stripComment suffix) := by
  obtain ⟨comment, split⟩ := stripFrom_isPrefix .start suffix
  constructor
  · intro c member
    apply tail.solid
    rw [← split]
    exact List.mem_append_left comment member
  · intro c first
    apply tail.ends
    rw [← split, List.head?_append, ← SceneScript.stripComment, first]
    rfl

theorem NumberTail.solid_append (tail : NumberTail suffix) (n : Int64) :
    ∀ c ∈ (toString n.toInt).toList ++ suffix, isBlank c = false := by
  intro c member
  rcases List.mem_append.1 member with inside | behind
  · exact ((isBare_toString n.toInt).solid c inside).1
  · exact tail.solid c behind

theorem toString_append_ne_nil (n : Int64) (suffix : List Char) :
    (toString n.toInt).toList ++ suffix ≠ [] :=
  List.append_ne_nil_of_left_ne_nil (isBare_toString n.toInt).some suffix

theorem ofRaw?_fontSize (tail : NumberTail suffix) (n : Int64) (number : Nat) :
    Line.ofRaw? (Keyword.fontSize.row ((toString n.toInt).toList ++ suffix)) number =
      some ⟨number, Keyword.fontSize.row ((toString n.toInt).toList ++ stripComment suffix)⟩ := by
  have kept : stripComment ((toString n.toInt).toList ++ suffix) =
      (toString n.toInt).toList ++ stripComment suffix :=
    stripFrom_plain (isBare_toString n.toInt).plain false suffix
  have filled := toString_append_ne_nil n (stripComment suffix)
  have solid := tail.stripComment.solid_append n
  rw [← kept] at filled solid ⊢
  exact ofRaw?_row .fontSize filled solid number

theorem Nest.step_fontSize_row (nest : Nest) (tail : NumberTail suffix) (n : Int64) (number : Nat) :
    nest.step ⟨number, Keyword.fontSize.row ((toString n.toInt).toList ++ suffix)⟩ =
      if n = Int64.minValue then
        .error ⟨number, .invalidNumber (String.ofList ((toString n.toInt).toList ++ suffix))⟩
      else .ok (nest.push (.act (.style (.fontSize n))), []) := by
  have second := Line.argument?_row .fontSize number (toString_append_ne_nil n suffix)
    (tail.solid_append n)
  rw [nest.step_fontSize (ofWord?_row .fontSize rfl number _) second,
    Numeral.leadingInt?_written n tail.ends]
  by_cases lowest : n = Int64.minValue
  · rw [if_pos lowest, if_pos lowest]
  · rw [if_neg lowest, if_neg lowest]

end Sizes

/--
Every text can be cut into blanks, a sign or none, a longest run of digits and the rest. Reading
gives a number exactly if there are digits and their signed value is a signed 64-bit word other than
the lowest one, and then it gives that value. So it gives every value that such a word can hold
except for the lowest. In a script, every other word is read back as a font size from a line that
spells it out, with any word behind it that does not start with a digit.
-/
theorem numeral_value (text : List Char) :
    Nonempty (Numeral text) ∧
    (∀ numeral : Numeral text,
      (∀ n : Int64, leadingInt? text = some n ↔ numeral.digits ≠ [] ∧
        (-2 ^ 63 < numeral.value ∧ numeral.value ≤ 2 ^ 63 - 1) ∧ n.toInt = numeral.value) ∧
      ((∀ n : Int64, leadingInt? text = some n ↔ numeral.digits ≠ [] ∧
        (-2 ^ 63 ≤ numeral.value ∧ numeral.value ≤ 2 ^ 63 - 1) ∧ n.toInt = numeral.value) ↔
        numeral.value ≠ -2 ^ 63)) ∧
    (∀ (nest : Nest) (number : Nat) (n : Int64) (suffix : List Char), NumberTail suffix →
      ∃ line, Line.ofRaw? (Keyword.fontSize.row ((toString n.toInt).toList ++ suffix)) number =
          some line ∧ line.isHeader = false ∧
        (n ≠ Int64.minValue →
          nest.step line = .ok (nest.push (.act (.style (.fontSize n))), [])) ∧
        (n = Int64.minValue →
          ∃ word, nest.step line = .error ⟨number, .invalidNumber word⟩)) := by
  refine ⟨Numeral.nonempty_numeral text, ?_, ?_⟩
  · intro numeral
    exact ⟨fun n => numeral.leadingInt?_eq_some_iff, numeral.leadingInt?_exact_iff⟩
  · intro nest number n suffix tail
    have stepped := nest.step_fontSize_row tail.stripComment n number
    refine ⟨_, ofRaw?_fontSize tail n number, ?_, ?_, ?_⟩
    · exact Line.isHeader_of_keyword? (ofWord?_row .fontSize rfl number _)
    · intro other
      rw [stepped, if_neg other]
    · intro lowest
      rw [stepped, if_pos lowest]
      exact ⟨_, rfl⟩

def lowestWord : List Char :=
  "-9223372036854775808".toList

/-- The lowest word is the value of its digits, and neither the reader nor a script gives it. -/
theorem numeral_lowest :
    (∃ numeral : Numeral lowestWord, numeral.digits ≠ [] ∧
      Int64.minValue.toInt = numeral.value) ∧
    leadingInt? lowestWord = none ∧
    (Program.parse ("scene a\nfontsize " ++ String.ofList lowestWord)).result =
      .error ⟨2, .invalidNumber "-9223372036854775808"⟩ := by
  have spelled : lowestWord = (toString Int64.minValue.toInt).toList ++ [] := by decide
  have failed : Section.scenes (Section.split
      (Line.scan ("scene a\nfontsize " ++ String.ofList lowestWord).toList)).2 =
      .error ⟨2, .invalidNumber "-9223372036854775808"⟩ := by
    decide +kernel
  refine ⟨?_, by decide, ?_⟩
  · rw [spelled]
    have ends : ∀ c ∈ ([] : List Char).head?, c.isDigit = false := by simp
    exact ⟨.written _ [] ends, Numeral.digits_written_ne_nil _ ends,
      (Numeral.value_written _ ends).symm⟩
  · rw [Program.result_parse, failed]
    rfl

/-- A line that sets the size next to the lowest one, with a unit and a comment right behind it. -/
def marginLine : List Char :=
  "fontsize -9223372036854775807px;x".toList

theorem numeral_value_margin :
    ∃ line, Line.ofRaw? marginLine 2 = some line ∧
      Nest.start.step line =
        .ok (Nest.start.push (.act (.style (.fontSize (-9223372036854775807)))), []) := by
  have clear : ∀ c ∈ "px;x".toList, (!isBlank c) = true := List.all_eq_true.1 (by decide)
  have tail : NumberTail "px;x".toList := by
    constructor
    · intro c member
      simpa using clear c member
    · intro c first
      cases first
      rfl
  have spelled : marginLine = Keyword.fontSize.row
      ((toString (Int64.toInt (-9223372036854775807))).toList ++ "px;x".toList) := by
    decide
  obtain ⟨line, scanned, -, read, -⟩ :=
    (numeral_value marginLine).2.2 Nest.start 2 (-9223372036854775807) "px;x".toList tail
  rw [← spelled] at scanned
  exact ⟨line, scanned, read (by decide)⟩

end SceneScript
