import SceneScript.Condition.Token
import SceneScript.Proofs.Text.Words

/-!
# Tokens of joined texts

A blank or a parenthesis ends a word, so the tokens of a text are those of its parts: what is left
of such a character, the character itself, and what is right of it. Scanning fails exactly if some
character belongs to no token, and then with the first such character.
-/

namespace SceneScript.Condition.Token

open SceneScript.Text

set_option autoImplicit false

def isTokenChar (c : Char) : Bool :=
  isBlank c || c == '(' || c == ')' || isWordChar c

def mark? (c : Char) : Option (List Token) :=
  if isBlank c then some []
  else if c = '(' then some [opening]
  else if c = ')' then some [closing]
  else none

theorem mark?_eq_none {c : Char} (word : isWordChar c = true) : mark? c = none := by
  have blank := isBlank_of_isWordChar word
  have left := ne_of_isWordChar word (show isWordChar '(' = false by decide)
  have right := ne_of_isWordChar word (show isWordChar ')' = false by decide)
  simp [mark?, blank, left, right]

theorem cut_mark {c : Char} {mark : List Token} (ends : mark? c = some mark) (rest : List Char) :
    cut (c :: rest) = (scan rest).map fun tokens => ([], mark ++ tokens) := by
  unfold mark? at ends
  rw [cut, scan]
  split at ends
  · rename_i blank
    cases ends
    rw [if_pos blank]
    cases cut rest <;> rfl
  · rename_i solid
    rw [if_neg solid]
    split at ends
    · rename_i left
      cases ends
      rw [if_pos left]
      cases cut rest <;> rfl
    · rename_i notLeft
      rw [if_neg notLeft]
      split at ends
      · rename_i right
        cases ends
        rw [if_pos right]
        cases cut rest <;> rfl
      · cases ends

theorem cut_other {c : Char} (inside : mark? c = none) (rest : List Char) :
    cut (c :: rest) =
      if isWordChar c then (cut rest).map fun found => (c :: found.1, found.2) else .error c := by
  unfold mark? at inside
  rw [cut]
  split at inside
  · cases inside
  · rename_i solid
    rw [if_neg solid]
    split at inside
    · cases inside
    · rename_i notLeft
      rw [if_neg notLeft]
      split at inside
      · cases inside
      · rename_i notRight
        rw [if_neg notRight]

theorem flush_append (word : List Char) (tokens others : List Token) :
    flush word (tokens ++ others) = flush word tokens ++ others := by
  unfold flush
  split <;> rfl

-- The word that the text starts with is not yet a token, so the induction is over `cut`.
theorem cut_append_mark {c : Char} {mark : List Token} (ends : mark? c = some mark)
    (left right : List Char) :
    cut (left ++ c :: right) =
      (cut left).bind fun found =>
        (scan right).map fun tokens => (found.1, found.2 ++ mark ++ tokens) := by
  induction left with
  | nil =>
      rw [List.nil_append, cut_mark ends]
      rfl
  | cons first left ih =>
      rw [List.cons_append]
      cases inside : mark? first with
      | some other =>
          rw [cut_mark inside, cut_mark inside, scan, scan, ih]
          cases cut left with
          | error bad => rfl
          | ok found =>
              simp only [Except.bind, Except.map]
              cases scan right with
              | error bad => rfl
              | ok tokens => simp [flush_append]
      | none =>
          rw [cut_other inside, cut_other inside, ih]
          split
          · cases cut left with
            | error bad => rfl
            | ok found =>
                simp only [Except.bind, Except.map]
                cases scan right <;> rfl
          · rfl

theorem scan_append_mark {c : Char} {mark : List Token} (ends : mark? c = some mark)
    (left right : List Char) :
    scan (left ++ c :: right) =
      (scan left).bind fun before => (scan right).map fun behind => before ++ mark ++ behind := by
  change (cut (left ++ c :: right)).map _ = ((cut left).map _).bind _
  rw [cut_append_mark ends]
  cases cut left with
  | error bad => rfl
  | ok found =>
      simp only [Except.bind, Except.map]
      cases scan right with
      | error bad => rfl
      | ok tokens => simp [flush_append]

theorem isTokenChar_eq (c : Char) : isTokenChar c = ((mark? c).isSome || isWordChar c) := by
  unfold isTokenChar mark?
  split
  · rename_i blank
    simp [blank]
  · rename_i solid
    simp only [Bool.not_eq_true] at solid
    split
    · rename_i left
      simp [left]
    · split
      · rename_i right
        simp [right]
      · rename_i notLeft notRight
        simp [solid, notLeft, notRight]

theorem cut_tokenChar {c : Char} (inside : isTokenChar c = true) (rest : List Char) :
    ∃ extend, cut (c :: rest) = (cut rest).map extend := by
  cases ends : mark? c with
  | some mark =>
      refine ⟨fun found => ([], mark ++ flush found.1 found.2), ?_⟩
      rw [cut_mark ends, scan]
      cases cut rest <;> rfl
  | none =>
      rw [isTokenChar_eq, ends] at inside
      rw [cut_other ends, if_pos (by simpa using inside)]
      exact ⟨_, rfl⟩

theorem cut_badChar {c : Char} (outside : isTokenChar c = false) (rest : List Char) :
    cut (c :: rest) = .error c := by
  rw [isTokenChar_eq, Bool.or_eq_false_iff, Option.isSome_eq_false_iff, Option.isNone_iff_eq_none]
    at outside
  rw [cut_other outside.1, if_neg (by simp [outside.2])]

theorem cut_error {text : List Char} {bad : Char}
    (first : text.find? (fun c => !isTokenChar c) = some bad) : cut text = .error bad := by
  induction text with
  | nil => cases first
  | cons c rest ih =>
      rw [List.find?_cons] at first
      cases inside : isTokenChar c with
      | false =>
          simp only [inside, Bool.not_false, Option.some.injEq] at first
          rw [cut_badChar inside, first]
      | true =>
          simp only [inside, Bool.not_true] at first
          obtain ⟨extend, same⟩ := cut_tokenChar inside rest
          rw [same, ih first]
          rfl

theorem cut_ok {text : List Char} (clean : text.find? (fun c => !isTokenChar c) = none) :
    ∃ found, cut text = .ok found := by
  induction text with
  | nil => exact ⟨_, rfl⟩
  | cons c rest ih =>
      rw [List.find?_cons] at clean
      cases inside : isTokenChar c with
      | false => simp [inside] at clean
      | true =>
          simp only [inside, Bool.not_true] at clean
          obtain ⟨found, later⟩ := ih clean
          obtain ⟨extend, same⟩ := cut_tokenChar inside rest
          rw [same, later]
          exact ⟨_, rfl⟩

theorem scan_error {text : List Char} {bad : Char}
    (first : text.find? (fun c => !isTokenChar c) = some bad) : scan text = .error bad := by
  rw [scan, cut_error first]
  rfl

theorem scan_ok {text : List Char} (clean : text.find? (fun c => !isTokenChar c) = none) :
    ∃ tokens, scan text = .ok tokens := by
  obtain ⟨found, whole⟩ := cut_ok clean
  rw [scan, whole]
  exact ⟨_, rfl⟩

theorem scan_nil : scan [] = .ok [] := rfl

theorem scan_word {word : List Char} (solid : ∀ c ∈ word, isWordChar c = true) (some : word ≠ []) :
    scan word = .ok [ofWord word] := by
  have whole : cut word = .ok (word, []) := by
    clear some
    induction word with
    | nil => rfl
    | cons c rest ih =>
        have first : isWordChar c = true := solid c (by simp)
        rw [cut_other (mark?_eq_none first), if_pos first,
          ih fun d member => solid d (by simp [member])]
        rfl
  rw [scan, whole]
  simp [Except.map, flush, some]

theorem mark?_of_blank {c : Char} (blank : isBlank c = true) : mark? c = some [] := by
  simp [mark?, blank]

/-- Tokens do not depend on which blanks stand between the words of a text. -/
theorem scan_unwords_words (text : List Char) : scan (unwords (words text)) = scan text := by
  induction counted : text.length using Nat.strongRecOn generalizing text with
  | ind size ih =>
      by_cases cuts : ∃ c ∈ text, isBlank c = true
      · obtain ⟨c, member, blank⟩ := cuts
        obtain ⟨left, right, rfl⟩ := List.append_of_mem member
        simp only [List.length_append, List.length_cons] at counted
        have before := ih left.length (by omega) left rfl
        have behind := ih right.length (by omega) right rfl
        rw [words_append_blank blank, scan_append_mark (mark?_of_blank blank), ← before, ← behind]
        by_cases noneLeft : words left = []
        · rw [noneLeft]
          simp only [List.nil_append, unwords, List.intercalate_nil, scan_nil, Except.bind]
          cases scan ([' '].intercalate (words right)) <;> rfl
        · by_cases noneRight : words right = []
          · rw [noneRight]
            simp only [List.append_nil, unwords, List.intercalate_nil, scan_nil, Except.map]
            cases scan ([' '].intercalate (words left)) <;> simp [Except.bind]
          · rw [unwords_append noneLeft noneRight, scan_append_mark (mark?_of_blank (by decide))]
      · have solid : ∀ c ∈ text, isBlank c = false := by
          intro c member
          exact Bool.eq_false_iff.2 fun blank => cuts ⟨c, member, blank⟩
        by_cases empty : text = []
        · rw [empty]
          rfl
        · rw [words_of_solid solid empty]
          simp [unwords]

end SceneScript.Condition.Token
