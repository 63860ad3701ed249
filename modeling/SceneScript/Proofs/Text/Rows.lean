import SceneScript.Text.Utf8

/-!
# Rows of an input

A row is a line with its line feed. Only the last row of a text may lack it. The byte of a line feed
is part of no other character, so encoded text is cut into the same rows by its bytes.
-/

namespace SceneScript.Text

set_option autoImplicit false

/-- The lines of a text with their line feeds: a row ends behind each line feed and at the end. -/
def rows : List Char → List (List Char)
  | [] => []
  | c :: rest =>
    if c = '\n' then [c] :: rows rest
    else
      match rows rest with
      | [] => [[c]]
      | row :: others => (c :: row) :: others

theorem flatten_rows (text : List Char) : (rows text).flatten = text := by
  induction text with
  | nil => rfl
  | cons c rest ih =>
      rw [rows]
      split
      · rw [List.flatten_cons, ih]
        rfl
      · cases later : rows rest with
        | nil =>
            rw [later] at ih
            rw [← ih]
            rfl
        | cons row others =>
            rw [later] at ih
            rw [← ih]
            rfl

theorem rows_feed {body : List Char} (single : '\n' ∉ body) (rest : List Char) :
    rows (body ++ '\n' :: rest) = (body ++ ['\n']) :: rows rest := by
  induction body with
  | nil => rfl
  | cons c body ih =>
      simp only [List.mem_cons, not_or] at single
      obtain ⟨other, later⟩ := single
      rw [List.cons_append, rows, if_neg (Ne.symm other), ih later]
      rfl

theorem rows_last {body : List Char} (single : '\n' ∉ body) (filled : body ≠ []) :
    rows body = [body] := by
  induction body with
  | nil => exact absurd rfl filled
  | cons c body ih =>
      simp only [List.mem_cons, not_or] at single
      obtain ⟨other, later⟩ := single
      rw [rows, if_neg (Ne.symm other)]
      cases body with
      | nil => rfl
      | cons d body => rw [ih later (List.cons_ne_nil d body)]

theorem rows_cases {text row : List Char} {others : List (List Char)}
    (cut : rows text = row :: others) :
    (∃ body rest, '\n' ∉ body ∧ text = body ++ '\n' :: rest ∧ row = body ++ ['\n'] ∧
      others = rows rest) ∨
    ('\n' ∉ text ∧ text ≠ [] ∧ row = text ∧ others = []) := by
  by_cases feed : '\n' ∈ text
  · obtain ⟨body, rest, rfl, single⟩ := List.eq_append_cons_of_mem feed
    rw [rows_feed single, List.cons.injEq] at cut
    exact .inl ⟨body, rest, single, rfl, cut.1.symm, cut.2.symm⟩
  · have filled : text ≠ [] := by
      rintro rfl
      cases cut
    rw [rows_last feed filled, List.cons.injEq] at cut
    exact .inr ⟨feed, filled, cut.1.symm, cut.2.symm⟩

theorem encode_append (left right : List Char) :
    encode (left ++ right) = encode left ++ encode right :=
  List.flatMap_append

theorem encode_feed (rest : List Char) : encode ('\n' :: rest) = 10 :: encode rest := by
  rw [encode, List.flatMap_cons]
  rfl

theorem encode_ne_nil {text : List Char} (filled : text ≠ []) : encode text ≠ [] := by
  obtain ⟨c, rest, rfl⟩ := List.exists_cons_of_ne_nil filled
  have long : 0 < (String.utf8EncodeChar c).length := by
    rw [String.length_utf8EncodeChar]
    exact c.utf8Size_pos
  intro none
  rw [encode, List.flatMap_cons, List.append_eq_nil_iff] at none
  rw [none.1] at long
  exact absurd long (Nat.lt_irrefl 0)

theorem feed_not_mem_utf8EncodeChar {c : Char} (other : c ≠ '\n') :
    (10 : UInt8) ∉ String.utf8EncodeChar c := by
  have high : ∀ byte sign : UInt8, 128 ≤ sign.toNat → 10 ≠ byte ||| sign := by
    intro byte sign large same
    have sum := congrArg UInt8.toNat same
    rw [UInt8.toNat_or] at sum
    have atLeast : sign.toNat ≤ byte.toNat ||| sign.toNat := Nat.right_le_or
    rw [← sum] at atLeast
    have small : (10 : UInt8).toNat = 10 := rfl
    omega
  obtain one | two | three | four := c.utf8Size_eq
  · have low : c.val ≤ 127 := Char.utf8Size_eq_one_iff.1 one
    rw [String.utf8EncodeChar_eq_singleton one, List.mem_singleton]
    intro same
    have value := congrArg UInt8.toNat same
    rw [UInt32.toNat_toUInt8] at value
    have small : (10 : UInt8).toNat = 10 := rfl
    have bound : c.val.toNat ≤ 127 := UInt32.le_iff_toNat_le.1 low
    have equal : c.val.toNat = '\n'.val.toNat := by
      have feed : '\n'.val.toNat = 10 := rfl
      omega
    exact other (Char.ext (UInt32.toNat_inj.1 equal))
  · rw [String.utf8EncodeChar_eq_cons_cons two]
    simp [high]
  · rw [String.utf8EncodeChar_eq_cons_cons_cons three]
    simp [high]
  · rw [String.utf8EncodeChar_eq_cons_cons_cons_cons four]
    simp [high]

theorem feed_not_mem_encode {text : List Char} (single : '\n' ∉ text) :
    (10 : UInt8) ∉ encode text := by
  intro member
  obtain ⟨c, inside, byte⟩ := List.mem_flatMap.1 member
  refine feed_not_mem_utf8EncodeChar ?_ byte
  rintro rfl
  exact single inside

end SceneScript.Text
