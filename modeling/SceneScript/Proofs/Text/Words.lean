import SceneScript.Text.Ascii
import SceneScript.Text.Blank

/-!
# Word characters and words

Word characters are neither blanks nor signs. Cutting a text into words commutes with joining texts
by blanks, a text without blanks is one word, and the words are the text without its blanks. Sizes
in bytes add up.
-/

namespace SceneScript.Text

set_option autoImplicit false

theorem toNat_of_isWordChar {c : Char} (word : isWordChar c = true) :
    48 ≤ c.toNat ∧ c.toNat ≤ 122 := by
  have classes : isWordChar c = (decide ('A'.val ≤ c.val ∧ c.val ≤ 'Z'.val) ||
      ('a'.val ≤ c.val && c.val ≤ 'z'.val) || ('0'.val ≤ c.val && c.val ≤ '9'.val) ||
      c == '_') := rfl
  simp only [classes, Bool.or_eq_true, Bool.and_eq_true, decide_eq_true_eq, beq_iff_eq,
    UInt32.le_iff_toNat_le] at word
  rcases word with ((upper | lower) | digit) | rfl
  · have first : 65 ≤ c.toNat := upper.1
    have last : c.toNat ≤ 90 := upper.2
    omega
  · have first : 97 ≤ c.toNat := lower.1
    have last : c.toNat ≤ 122 := lower.2
    omega
  · have first : 48 ≤ c.toNat := digit.1
    have last : c.toNat ≤ 57 := digit.2
    omega
  · decide

theorem isBlank_of_isWordChar {c : Char} (word : isWordChar c = true) : isBlank c = false := by
  obtain ⟨low, high⟩ := toNat_of_isWordChar word
  simp only [isBlank, blankRanges, List.any_cons, List.any_nil, Bool.or_eq_false_iff,
    Bool.and_eq_false_iff, decide_eq_false_iff_not, and_true]
  omega

theorem ne_of_isWordChar {c sign : Char} (word : isWordChar c = true)
    (other : isWordChar sign = false) : c ≠ sign := by
  rintro rfl
  rw [word] at other
  cases other

theorem isWordChar_of_toLower {c : Char} (word : isWordChar c.toLower = true) :
    isWordChar c = true := by
  cases upper : c.isUpper with
  | true =>
      have classes : isWordChar c = (c.isUpper || c.isLower || c.isDigit || c == '_') := rfl
      simp [classes, upper]
  | false =>
      have outside : ¬ ('A'.val ≤ c.val ∧ c.val ≤ 'Z'.val) := of_decide_eq_false upper
      have same : c.toLower = c := dif_neg outside
      rwa [same] at word

theorem isWordChar_of_sameWord {word keyword : List Char} (same : sameWord word keyword = true)
    (solid : ∀ c ∈ lower keyword, isWordChar c = true) : ∀ c ∈ word, isWordChar c = true := by
  intro c member
  apply isWordChar_of_toLower
  apply solid
  rw [← eq_of_beq same]
  exact List.mem_map_of_mem member

theorem words_append_blank {c : Char} (blank : isBlank c = true) (left right : List Char) :
    words (left ++ c :: right) = words left ++ words right := by
  rw [words, List.splitOnP_append_cons _ _ blank, List.filter_append]
  rfl

theorem words_of_solid {word : List Char} (solid : ∀ c ∈ word, isBlank c = false)
    (some : word ≠ []) : words word = [word] := by
  rw [words, List.splitOnP_eq_singleton solid]
  simp [some]

theorem words_blanks {blanks : List Char} (blank : ∀ c ∈ blanks, isBlank c = true)
    (text : List Char) : words (blanks ++ text) = words text := by
  induction blanks with
  | nil => rfl
  | cons c rest ih =>
      have later := ih fun d member => blank d (by simp [member])
      have whole := words_append_blank (blank c (by simp)) [] (rest ++ text)
      rw [List.nil_append, later] at whole
      exact whole

/-- Blanks between two texts keep their words apart, whichever blanks they are. -/
theorem words_gap {gap : List Char} (some : gap ≠ []) (blank : ∀ c ∈ gap, isBlank c = true)
    (left right : List Char) : words (left ++ (gap ++ right)) = words left ++ words right := by
  obtain ⟨c, rest, rfl⟩ := List.exists_cons_of_ne_nil some
  rw [List.cons_append, words_append_blank (blank c (by simp)),
    words_blanks fun d member => blank d (by simp [member])]

theorem exists_words_of_solid {front : List Char} (filled : front ≠ [])
    (solid : ∀ c ∈ front, isBlank c = false) (rest : List Char) :
    ∃ more others, words (front ++ rest) = (front ++ more) :: others := by
  have run : ∀ more : List Char, (∀ c ∈ more, isBlank c = false) →
      words (front ++ more) = [front ++ more] := by
    intro more clear
    refine words_of_solid ?_ (List.append_ne_nil_of_left_ne_nil filled more)
    intro c member
    rcases List.mem_append.1 member with inside | behind
    · exact solid c inside
    · exact clear c behind
  cases first : rest.find? isBlank with
  | some c =>
      obtain ⟨blank, more, behind, rfl, clear⟩ := List.find?_eq_some_iff_append.1 first
      refine ⟨more, words behind, ?_⟩
      rw [← List.append_assoc, words_append_blank blank, run more (by simpa using clear)]
      rfl
  | none => exact ⟨rest, [], run rest (by simpa using first)⟩

/-- The words of a text are what it has besides blanks. -/
theorem flatten_words (text : List Char) :
    (words text).flatten = text.filter fun c => !isBlank c := by
  rw [words, List.flatten_filter_not_isEmpty]
  induction text with
  | nil => rfl
  | cons c rest ih =>
      rw [List.splitOnP_cons_eq_if_modifyHead, List.filter_cons, ← ih]
      obtain ⟨first, others, pieces⟩ :=
        List.exists_cons_of_ne_nil (List.splitOnP_ne_nil isBlank rest)
      cases blank : isBlank c <;> simp [pieces]

theorem unwords_append {left right : List (List Char)} (before : left ≠ []) (behind : right ≠ []) :
    unwords (left ++ right) = unwords left ++ ' ' :: unwords right := by
  induction left with
  | nil => exact absurd rfl before
  | cons word rest ih =>
      cases rest with
      | nil =>
          rw [List.singleton_append, unwords, List.intercalate_cons_of_ne_nil behind]
          simp [unwords]
      | cons next others =>
          have later := ih (List.cons_ne_nil _ _)
          simp only [unwords, List.cons_append, List.intercalate_cons_cons] at later ⊢
          rw [later]
          simp

theorem stops_dropWhile (test : Char → Bool) (text : List Char) :
    ∀ c ∈ (text.dropWhile test).head?, test c = false := by
  intro c first
  have stopped := List.head?_dropWhile_not test text
  rw [first] at stopped
  exact stopped

theorem byteSize_append (left right : List Char) :
    byteSize (left ++ right) = byteSize left + byteSize right := by
  induction left with
  | nil => simp [byteSize]
  | cons c left ih =>
      rw [List.cons_append, byteSize, ih, byteSize, Nat.add_assoc]

end SceneScript.Text
