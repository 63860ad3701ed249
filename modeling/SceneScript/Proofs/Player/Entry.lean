import SceneScript.Player.Config
import SceneScript.Proofs.Script.Comments
import SceneScript.Proofs.Script.Preorder
import SceneScript.Proofs.Script.Representation

/-!
# Entry scenes and scene ids

The id of a scene is one word of its header, so it is not empty and has no blank. The entry scene of
the settings is looked at in another way: it is counted into words, and blanks around it do not add
to the count. So settings are also accepted if the entry scene is a word with blanks around it, and
no script can define a scene of that name.
-/

namespace SceneScript

open SceneScript.Text

set_option autoImplicit false

namespace Text

/-- A text that is one word as it stands. -/
structure IsWord (text : List Char) : Prop where
  filled : text ≠ []
  solid : ∀ c ∈ text, isBlank c = false

theorem isWord_of_mem_words {text word : List Char} (member : word ∈ words text) :
    IsWord word where
  filled := by
    rintro rfl
    simp [words] at member
  solid := by
    intro c inside
    have kept : c ∈ (words text).flatten := List.mem_flatten.2 ⟨word, member, inside⟩
    rw [flatten_words, List.mem_filter] at kept
    simpa using kept.2

theorem words_ne_nil {text : List Char} {c : Char} (member : c ∈ text) (solid : isBlank c = false) :
    words text ≠ [] := by
  intro none
  have kept : c ∈ (words text).flatten := by
    rw [flatten_words, List.mem_filter]
    exact ⟨member, by simp [solid]⟩
  rw [none] at kept
  cases kept

theorem exists_blanks_trim (text : List Char) :
    ∃ before behind, (∀ c ∈ before, isBlank c = true) ∧ (∀ c ∈ behind, isBlank c = true) ∧
      text = before ++ (trim text ++ behind) := by
  refine ⟨text.takeWhile isBlank, ((trimStart text).reverse.takeWhile isBlank).reverse, ?_, ?_, ?_⟩
  · exact fun c member => List.mem_takeWhile_imp member
  · exact fun c member => List.mem_takeWhile_imp (List.mem_reverse.1 member)
  · rw [trim, trimEnd, ← List.reverse_append, List.takeWhile_append_dropWhile, List.reverse_reverse,
      trimStart, List.takeWhile_append_dropWhile]

theorem words_trim (text : List Char) : words (trim text) = words text := by
  obtain ⟨before, behind, white, clear, whole⟩ := exists_blanks_trim text
  have inner : words (trim text ++ behind) = words (trim text) := by
    by_cases none : behind = []
    · rw [none, List.append_nil]
    · have cut := words_gap none clear (trim text) []
      rw [List.append_nil] at cut
      rw [cut]
      exact List.append_nil _
  conv_rhs => rw [whole, words_blanks white, inner]

theorem trim_of_solid {text : List Char} (solid : ∀ c ∈ text, isBlank c = false) :
    trim text = text := by
  have kept : ∀ part : List Char, (∀ c ∈ part, isBlank c = false) →
      part.dropWhile isBlank = part := by
    intro part clear
    refine List.dropWhile_eq_self_iff.2 fun inside => ?_
    exact Bool.eq_false_iff.1 (clear _ (List.getElem_mem inside))
  rw [trim, trimStart, kept text solid, trimEnd,
    kept text.reverse fun c member => solid c (List.mem_reverse.1 member), List.reverse_reverse]

theorem isWord_iff_trim (text : List Char) :
    IsWord text ↔ IsWord (trim text) ∧ trim text = text := by
  constructor
  · intro word
    have same := trim_of_solid word.solid
    exact ⟨same.symm ▸ word, same⟩
  · rintro ⟨word, same⟩
    exact same ▸ word

theorem exists_solid_before {front rest : List Char} {c : Char} (blank : isBlank c = true)
    (kept : (front ++ c :: rest).dropWhile isBlank = front ++ c :: rest) :
    ∃ d ∈ front, isBlank d = false := by
  have filled : 0 < (front ++ c :: rest).length := List.length_pos_iff.2 (by simp)
  have first := List.dropWhile_eq_self_iff.1 kept filled
  cases front with
  | nil => exact absurd blank first
  | cons d others => exact ⟨d, by simp, Bool.eq_false_iff.2 first⟩

theorem two_le_words_of_blank {text : List Char} {c : Char} (member : c ∈ trim text)
    (blank : isBlank c = true) : 2 ≤ (words text).length := by
  obtain ⟨left, right, split⟩ := List.append_of_mem member
  have again : trim (trim text) = trim text := trim_trim text
  rw [split] at again
  have front : trimStart (left ++ c :: right) = left ++ c :: right := by
    refine (List.dropWhile_suffix isBlank).eq_of_length_le ?_
    have short := (trimEnd_isPrefix (trimStart (left ++ c :: right))).length_le
    rw [← trim, again] at short
    exact short
  have back : (right.reverse ++ c :: left.reverse).dropWhile isBlank =
      right.reverse ++ c :: left.reverse := by
    rw [trim, front, trimEnd] at again
    have turned := congrArg List.reverse again
    simpa using turned
  obtain ⟨d, inLeft, solid⟩ := exists_solid_before blank front
  obtain ⟨e, inRight, clear⟩ := exists_solid_before blank back
  have before := List.length_pos_iff.2 (words_ne_nil inLeft solid)
  have behind := List.length_pos_iff.2 (words_ne_nil (List.mem_reverse.1 inRight) clear)
  rw [← words_trim, split, words_append_blank blank, List.length_append]
  omega

theorem isWord_trim_iff {text : List Char} :
    IsWord (trim text) ↔ trim text ≠ [] ∧ (words text).length ≤ 1 := by
  constructor
  · intro word
    refine ⟨word.filled, ?_⟩
    rw [← words_trim, words_of_solid word.solid word.filled]
    exact Nat.le_refl 1
  · rintro ⟨filled, few⟩
    refine ⟨filled, fun c member => Bool.eq_false_iff.2 fun blank => ?_⟩
    have many := two_le_words_of_blank member blank
    omega

end Text

theorem Program.mem_ids_ofScenes {scenes : List Scene} {id : String}
    (member : id ∈ (ofScenes scenes).ids) : ∃ scene ∈ scenes, scene.id = id := by
  have records : Records (ofScenes scenes) scenes := records_extend records_empty scenes
  rw [records.order, List.mem_eraseDups] at member
  exact List.mem_map.1 member

theorem Program.isWord_of_parse {text : String} {program : Program}
    (parsed : (parse text).result = .ok program) {id : String} (member : id ∈ program.ids) :
    IsWord id.toList := by
  obtain ⟨scenes, read, rfl⟩ := exists_scenes parsed
  obtain ⟨scene, listed, rfl⟩ := mem_ids_ofScenes member
  have made : Except.ok scene ∈ (Section.split (Line.scan text.toList)).2.map
      (fun part => part.read.result) := by
    rw [Section.scenes_eq_ok.1 read]
    exact List.mem_map_of_mem listed
  obtain ⟨part, -, given⟩ := List.mem_map.1 made
  have second := (Section.read_ok given).1
  exact isWord_of_mem_words (List.mem_of_getElem? second)

theorem Program.contains_of_not_isWord {text : String} {program : Program}
    (parsed : (parse text).result = .ok program) {id : String} (other : ¬ IsWord id.toList) :
    program.contains id = false := by
  obtain ⟨scenes, -, built⟩ := exists_scenes parsed
  refine Bool.eq_false_iff.2 fun defined => other ?_
  exact isWord_of_parse parsed (contains_iff_mem_ids.1 defined)

namespace Config

theorem validate_eq_ok_iff (config : Config) :
    config.validate = .ok () ↔
      config.scriptPath ≠ "" ∧ IsWord (trim config.startScene.toList) := by
  rw [isWord_trim_iff, validate]
  simp only [String.isEmpty_iff, List.isEmpty_iff]
  split
  · simp_all
  · split
    · simp_all
    · split <;> simp_all

/--
Settings are accepted exactly if there is a script path and the entry scene is a word, with or
without blanks around it. That is the same as being a word as it stands, except for an entry scene
with blanks around one word: there the settings are accepted all the same. The ids of every program
that a script is read as are words as they stand, so such an entry scene is in none of them.
-/
theorem validate_word (config : Config) :
    (config.validate = .ok () ↔
      config.scriptPath ≠ "" ∧ IsWord (trim config.startScene.toList)) ∧
    ((config.validate = .ok () ↔ config.scriptPath ≠ "" ∧ IsWord config.startScene.toList) ↔
      config.scriptPath = "" ∨ ¬ IsWord (trim config.startScene.toList) ∨
        trim config.startScene.toList = config.startScene.toList) ∧
    ∀ text program, (Program.parse text).result = .ok program →
      (∀ id ∈ program.ids, IsWord id.toList) ∧
      (¬ IsWord config.startScene.toList → program.contains config.startScene = false) := by
  have accepted := config.validate_eq_ok_iff
  refine ⟨accepted, ?_, ?_⟩
  · rw [accepted, isWord_iff_trim config.startScene.toList]
    tauto
  · intro text program parsed
    exact ⟨fun id member => Program.isWord_of_parse parsed member,
      Program.contains_of_not_isWord parsed⟩

/-- Settings with a blank before the entry scene are accepted, and no script defines that scene. -/
theorem validate_indented :
    validate { initial with startScene := " a" } = .ok () ∧ ¬ IsWord " a".toList ∧
      ∀ text program, (Program.parse text).result = .ok program →
        program.contains " a" = false := by
  have padded : ¬ IsWord " a".toList := fun word => absurd (word.solid ' ' (by decide)) (by decide)
  exact ⟨by decide, padded, fun text program parsed =>
    Program.contains_of_not_isWord parsed padded⟩

end Config

end SceneScript
