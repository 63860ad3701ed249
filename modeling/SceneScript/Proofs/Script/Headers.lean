import SceneScript.Proofs.Script.Literals
import SceneScript.Proofs.Script.Reading

/-!
# Keywords at the start of a line

The test for a keyword compares sizes in bytes and then letters, as long as both sides have one. A
text may have fewer letters than the keyword and still as many bytes. But letters that are the same
up to case have the same size, so a text that runs out of letters first is also too small, and what
is compared is the whole keyword. Headers are found in this way: behind the five bytes of their
keyword no letter is cut in two, and no other keyword fits such a line.
-/

namespace SceneScript

open SceneScript.Text

set_option autoImplicit false

namespace Text

theorem utf8Size_of_toNat_le {c : Char} (ascii : c.toNat ≤ 127) : c.utf8Size = 1 :=
  Char.utf8Size_eq_one_iff.2 (UInt32.le_iff_toNat_le.2 ascii)

/-- Case is a matter of ASCII letters, and these have one byte each. -/
theorem utf8Size_toLower (c : Char) : c.toLower.utf8Size = c.utf8Size := by
  by_cases upper : 'A'.val ≤ c.val ∧ c.val ≤ 'Z'.val
  · have high : c.toNat ≤ 90 := UInt32.le_iff_toNat_le.1 upper.2
    have shifted : c.toLower.val = c.val + 32 := congrArg Char.val (dif_pos upper)
    have small : c.toLower.toNat = (c.toNat + 32) % 2 ^ 32 := by
      rw [Char.toNat, shifted, UInt32.toNat_add]
      rfl
    rw [utf8Size_of_toNat_le (by omega), utf8Size_of_toNat_le (by omega)]
  · have same : c.toLower = c := dif_neg upper
    rw [same]

theorem byteSize_lower (text : List Char) : byteSize (lower text) = byteSize text := by
  induction text with
  | nil => rfl
  | cons c rest ih =>
      rw [lower, List.map_cons, byteSize, utf8Size_toLower, ← lower, ih, byteSize]

theorem byteSize_pos {text : List Char} (filled : text ≠ []) : 0 < byteSize text := by
  obtain ⟨c, rest, rfl⟩ := List.exists_cons_of_ne_nil filled
  have positive := c.utf8Size_pos
  rw [byteSize]
  omega

theorem all_zip_sameLetter (text keyword : List Char) :
    (text.zip keyword).all (fun pair => sameLetter pair.1 pair.2) = true ↔
      lower (text.take keyword.length) = lower (keyword.take text.length) := by
  induction text generalizing keyword with
  | nil => simp [lower]
  | cons c text ih =>
      cases keyword with
      | nil => simp [lower]
      | cons d keyword =>
          rw [List.zip_cons_cons, List.all_cons, Bool.and_eq_true, ih keyword]
          simp only [sameLetter, beq_iff_eq, lower, List.length_cons, List.take_succ_cons,
            List.map_cons, List.cons.injEq]

theorem startsWithKeyword_iff {text keyword : List Char} :
    startsWithKeyword text keyword = true ↔
      keyword.length ≤ text.length ∧ sameWord (text.take keyword.length) keyword = true := by
  rw [startsWithKeyword, Bool.and_eq_true, decide_eq_true_eq, all_zip_sameLetter, sameWord,
    beq_iff_eq]
  constructor
  · rintro ⟨size, same⟩
    by_cases long : keyword.length ≤ text.length
    · rw [List.take_of_length_le long] at same
      exact ⟨long, same⟩
    · -- the text would have the size of a proper front of the keyword
      have short : text.take keyword.length = text := List.take_of_length_le (by omega)
      have missing : keyword.drop text.length ≠ [] := by
        rw [Ne, List.drop_eq_nil_iff]
        exact long
      have front : byteSize text = byteSize (keyword.take text.length) := by
        rw [short] at same
        rw [← byteSize_lower, same, byteSize_lower]
      have whole : byteSize keyword =
          byteSize (keyword.take text.length) + byteSize (keyword.drop text.length) := by
        rw [← byteSize_append, List.take_append_drop]
      have positive := byteSize_pos missing
      omega
  · rintro ⟨long, same⟩
    refine ⟨?_, by rw [same, List.take_of_length_le long]⟩
    calc byteSize keyword = byteSize (text.take keyword.length) := by
          rw [← byteSize_lower, ← same, byteSize_lower]
      _ ≤ byteSize (text.take keyword.length) + byteSize (text.drop keyword.length) :=
          Nat.le_add_right _ _
      _ = byteSize text := by rw [← byteSize_append, List.take_append_drop]

theorem startsWithKeyword_iff_isPrefix {text keyword : List Char} :
    startsWithKeyword text keyword = true ↔ lower keyword <+: lower text := by
  rw [startsWithKeyword_iff, sameWord, beq_iff_eq, List.prefix_iff_eq_take]
  simp only [lower, List.length_map, List.map_take]
  constructor
  · rintro ⟨-, same⟩
    exact same.symm
  · intro same
    refine ⟨?_, same.symm⟩
    have counted := congrArg List.length same
    simp only [List.length_take, List.length_map] at counted
    omega

theorem byteSize_of_sameWord {word keyword : List Char} (same : sameWord word keyword = true) :
    byteSize word = byteSize keyword := by
  rw [← byteSize_lower, eq_of_beq same, byteSize_lower]

end Text

namespace Line

variable {line : Line}

theorem exists_word_of_startsWith {keyword : String} (starts : line.startsWith keyword = true) :
    ∃ word rest, line.text = word ++ rest ∧ sameWord word keyword.toList = true ∧
      dropBytes? (byteSize keyword.toList) line.text = some rest := by
  have same := (startsWithKeyword_iff.1 starts).2
  refine ⟨_, _, (List.take_append_drop keyword.toList.length line.text).symm, same, ?_⟩
  have behind := dropBytes?_append (line.text.take keyword.toList.length)
    (line.text.drop keyword.toList.length)
  rwa [byteSize_of_sameWord same, List.take_append_drop] at behind

theorem isHeader_iff :
    line.isHeader = true ↔ ∃ word rest, line.text = word ++ rest ∧
      sameWord word "scene".toList = true ∧ ∀ c ∈ rest.head?, isWordChar c = false := by
  constructor
  · intro heads
    rw [isHeader, Bool.and_eq_true] at heads
    obtain ⟨word, rest, whole, same, behind⟩ := exists_word_of_startsWith heads.1
    have bound : (!rest.head?.any isWordChar) = true := by
      have tested := heads.2
      rwa [show dropBytes? 5 line.text = some rest from behind] at tested
    rw [Bool.not_eq_true', Option.any_eq_false] at bound
    exact ⟨word, rest, whole, same, bound⟩
  · rintro ⟨word, rest, whole, same, bound⟩
    have starts : line.startsWith "scene" = true := by
      refine startsWithKeyword_iff_isPrefix.2 ⟨lower rest, ?_⟩
      rw [whole, ← eq_of_beq same, lower, lower, lower, List.map_append]
    have behind : dropBytes? 5 line.text = some rest := by
      have cut := dropBytes?_append word rest
      rwa [byteSize_of_sameWord same, ← whole] at cut
    have last : rest.head?.any isWordChar = false := (Option.any_eq_false _ _).2 bound
    rw [isHeader, starts, behind]
    simp [last]

/-- Of two keywords that differ somewhere, a line starts with one at most. -/
theorem startsWith_of_differs {keyword other : String} (starts : line.startsWith keyword = true)
    (longer : ¬ lower keyword.toList <+: lower other.toList)
    (shorter : ¬ lower other.toList <+: lower keyword.toList) : line.startsWith other = false := by
  apply Bool.eq_false_iff.2
  intro also
  have first := startsWithKeyword_iff_isPrefix.1 starts
  have second := startsWithKeyword_iff_isPrefix.1 also
  rcases List.prefix_or_prefix_of_prefix first second with inside | inside
  · exact longer inside
  · exact shorter inside

theorem keyword?_of_isHeader (heads : line.isHeader = true) : line.keyword? = none := by
  obtain ⟨word, rest, whole, same, -⟩ := isHeader_iff.1 heads
  have letters := isWordChar_of_sameWord same (List.all_eq_true.1 (by decide))
  have filled : word ≠ [] := by
    rintro rfl
    exact absurd same (by decide)
  obtain ⟨more, others, cut⟩ := exists_words_of_solid filled
    (fun c member => isBlank_of_isWordChar (letters c member)) rest
  rw [keyword?, Line.words, whole, cut]
  refine List.find?_eq_none.2 fun keyword listed spelled => ?_
  have longer : "scene".toList <+: keyword.text.toList := by
    rw [eq_of_beq spelled, List.headD_cons, lower, List.map_append, ← lower, eq_of_beq same]
    exact List.prefix_append _ _
  have shorter : ∀ keyword ∈ Keyword.inScene, ¬ "scene".toList <+: keyword.text.toList := by decide
  exact shorter keyword listed longer

theorem isHeader_of_keyword? {keyword : Keyword} (spelled : line.keyword? = some keyword) :
    line.isHeader = false := by
  apply Bool.eq_false_iff.2
  intro heads
  rw [keyword?_of_isHeader heads] at spelled
  cases spelled

/--
A text starts with a keyword exactly if it has at least as many letters and its first ones are those
of the keyword up to case; neither of them has to be ASCII. So a header is the word `scene` in any
case with no word character behind it, and five bytes into such a line there is always the start of
a letter or the end. A header neither closes a block nor starts an else part, and its first word is
no keyword of a line inside a scene.
-/
theorem isHeader_startsWith (line : Line) :
    (∀ keyword, startsWithKeyword line.text keyword = true ↔ keyword.length ≤ line.text.length ∧
      sameWord (line.text.take keyword.length) keyword = true) ∧
    (line.isHeader = true ↔ ∃ word rest, line.text = word ++ rest ∧
      sameWord word "scene".toList = true ∧ ∀ c ∈ rest.head?, isWordChar c = false) ∧
    (line.startsWith "scene" = true → ∃ word rest, line.text = word ++ rest ∧
      byteSize word = 5 ∧ dropBytes? 5 line.text = some rest) ∧
    (line.isHeader = true → line.startsWith "else" = false ∧ line.startsWith "end" = false ∧
      line.keyword? = none) := by
  refine ⟨fun keyword => startsWithKeyword_iff, isHeader_iff, ?_, ?_⟩
  · intro starts
    obtain ⟨word, rest, whole, same, behind⟩ := exists_word_of_startsWith starts
    exact ⟨word, rest, whole, byteSize_of_sameWord same, behind⟩
  · intro heads
    have starts : line.startsWith "scene" = true := by
      rw [isHeader, Bool.and_eq_true] at heads
      exact heads.1
    exact ⟨startsWith_of_differs starts (by decide) (by decide),
      startsWith_of_differs starts (by decide) (by decide), keyword?_of_isHeader heads⟩

/-- A header that is written with several cases and goes on with a letter of three bytes. -/
def archway : Line where
  number := 3
  text := "sCEne：set end".toList

theorem isHeader_startsWith_archway :
    archway.isHeader = true ∧ (∃ rest, dropBytes? 5 archway.text = some rest) ∧
      archway.startsWith "end" = false ∧ archway.keyword? = none := by
  obtain ⟨-, headed, boundary, apart⟩ := isHeader_startsWith archway
  have heads : archway.isHeader = true :=
    headed.2 ⟨"sCEne".toList, "：set end".toList, by decide, by decide, by rintro c ⟨⟩; rfl⟩
  obtain ⟨-, rest, -, -, behind⟩ := boundary (by decide)
  exact ⟨heads, ⟨rest, behind⟩, (apart heads).2⟩

-- Two letters have the size of three here, and the keyword has three.
example : byteSize "Eñ".toList = byteSize "end".toList ∧
    startsWithKeyword "Eñ".toList "end".toList = false := by
  decide

end Line

end SceneScript
