import SceneScript.Proofs.Text.Words
import SceneScript.Text.Numeral

/-!
# Numerals that are read back

A written number is a run of digits with a sign in front if it is negative. The reader takes it back
as long as the magnitude fits a signed 64-bit word.
-/

namespace SceneScript.Text

set_option autoImplicit false

theorem isWordChar_of_isDigit {c : Char} (digit : c.isDigit = true) : isWordChar c = true := by
  simp [isWordChar, Char.isAlphanum, digit]

theorem isDigit_of_mem_toDigits {magnitude : Nat} {c : Char}
    (member : c ∈ Nat.toDigits 10 magnitude) : c.isDigit = true :=
  Nat.isDigit_of_mem_toDigits (by decide) (by decide) member

theorem digitsValue_toDigits (magnitude : Nat) :
    digitsValue (Nat.toDigits 10 magnitude) = magnitude := by
  have value : Nat.ofDigitChars 10 (Nat.toDigits 10 magnitude) 0 = magnitude :=
    Nat.ofDigitChars_ten_toDigits
  rw [Nat.ofDigitChars_eq_foldl] at value
  exact value

theorem toList_toString_int (number : Int) :
    (toString number).toList =
      if number < 0 then '-' :: Nat.toDigits 10 number.natAbs
      else Nat.toDigits 10 number.natAbs := by
  rw [Int.toString_eq_repr, Int.repr_eq_if]
  by_cases negative : number < 0
  · have magnitude : (-number).toNat = number.natAbs := by omega
    rw [if_neg (by omega), if_pos negative, magnitude]
    simp
  · have magnitude : number.toNat = number.natAbs := by omega
    rw [if_pos (by omega), if_neg negative, magnitude]
    simp

theorem splitSign_digits {digits : List Char} (solid : ∀ c ∈ digits, c.isDigit = true) :
    splitSign digits = (false, digits) := by
  cases digits with
  | nil => rfl
  | cons c rest =>
      have digit := solid c (by simp)
      have notMinus : c ≠ '-' := by
        rintro rfl
        exact absurd digit (by decide)
      have notPlus : c ≠ '+' := by
        rintro rfl
        exact absurd digit (by decide)
      simp [splitSign, notMinus, notPlus]

theorem trimStart_solid {c : Char} (solid : isBlank c = false) (rest : List Char) :
    trimStart (c :: rest) = c :: rest := by
  simp [trimStart, solid]

theorem leadingInt?_of_splitSign {text digits : List Char} {negative : Bool}
    (split : splitSign (trimStart text) = (negative, digits))
    (solid : ∀ c ∈ digits, c.isDigit = true) (some : digits ≠ [])
    (fits : digitsValue digits < signedLimit) :
    leadingInt? text = .some (Int64.ofInt
      (if negative then -(digitsValue digits : Int) else digitsValue digits)) := by
  have whole : digits.takeWhile Char.isDigit = digits := by
    have kept : (digits ++ []).takeWhile Char.isDigit = digits ++ [].takeWhile Char.isDigit :=
      List.takeWhile_append_of_pos solid
    simpa using kept
  simp [leadingInt?, split, whole, some, fits]

theorem leadingInt?_toString {size : Int64} (low : -(signedLimit : Int) < size.toInt)
    (high : size.toInt < signedLimit) : leadingInt? (toString size.toInt).toList = some size := by
  have solid : ∀ c ∈ Nat.toDigits 10 size.toInt.natAbs, c.isDigit = true :=
    fun c member => isDigit_of_mem_toDigits member
  have fits : digitsValue (Nat.toDigits 10 size.toInt.natAbs) < signedLimit := by
    rw [digitsValue_toDigits]
    omega
  rw [toList_toString_int]
  by_cases negative : size.toInt < 0
  · rw [if_pos negative]
    have split : splitSign (trimStart ('-' :: Nat.toDigits 10 size.toInt.natAbs)) =
        (true, Nat.toDigits 10 size.toInt.natAbs) := by
      rw [trimStart_solid (by decide)]
      rfl
    rw [leadingInt?_of_splitSign split solid Nat.toDigits_ne_nil fits, digitsValue_toDigits,
      if_pos rfl]
    have value : -(size.toInt.natAbs : Int) = size.toInt := by omega
    rw [value, Int64.ofInt_toInt]
  · rw [if_neg negative]
    have split : splitSign (trimStart (Nat.toDigits 10 size.toInt.natAbs)) =
        (false, Nat.toDigits 10 size.toInt.natAbs) := by
      obtain ⟨c, rest, digits⟩ := List.exists_cons_of_ne_nil
        (Nat.toDigits_ne_nil : Nat.toDigits 10 size.toInt.natAbs ≠ [])
      have first := solid c (by simp [digits])
      rw [digits, trimStart_solid (isBlank_of_isWordChar (isWordChar_of_isDigit first)), ← digits]
      exact splitSign_digits solid
    rw [leadingInt?_of_splitSign split solid Nat.toDigits_ne_nil fits, digitsValue_toDigits]
    have value : (size.toInt.natAbs : Int) = size.toInt := by omega
    simp [value]

end SceneScript.Text
