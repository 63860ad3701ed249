import SceneScript.Proofs.Script.Insertion
import SceneScript.Script.Parser

/-!
# Sections of a script

Cutting lines into sections loses none of them: a section is a header and the lines behind it that
are none, and the lines before the first header are left over. Lines that begin with a header start
new sections whatever stands before them. A program is what its sections give one by one, each read
by itself, inserted in their order.
-/

namespace SceneScript

set_option autoImplicit false

namespace Section

/-- The lines of a section, its header first. -/
def lines (part : Section) : List Line :=
  part.header :: part.body

structure Proper (part : Section) : Prop where
  header : part.header.isHeader = true
  body : ∀ line ∈ part.body, line.isHeader = false

theorem split_header {header : Line} (heads : header.isHeader = true) (rest : List Line) :
    split (header :: rest) = ([], ⟨header, (split rest).1⟩ :: (split rest).2) := by
  simp [split, heads]

theorem split_plain {line : Line} (plain : line.isHeader = false) (rest : List Line) :
    split (line :: rest) = (line :: (split rest).1, (split rest).2) := by
  simp [split, plain]

theorem plain_of_mem_split {lines : List Line} :
    ∀ line ∈ (split lines).1, line.isHeader = false := by
  induction lines with
  | nil => simp [split]
  | cons first rest ih =>
      cases heads : first.isHeader with
      | true => simp [split_header heads]
      | false =>
          rw [split_plain heads]
          exact List.forall_mem_cons.2 ⟨heads, ih⟩

theorem proper_of_mem_split {lines : List Line} : ∀ part ∈ (split lines).2, part.Proper := by
  induction lines with
  | nil => simp [split]
  | cons first rest ih =>
      cases heads : first.isHeader with
      | true =>
          rw [split_header heads]
          exact List.forall_mem_cons.2 ⟨⟨heads, plain_of_mem_split⟩, ih⟩
      | false =>
          rw [split_plain heads]
          exact ih

theorem append_lines_split (lines : List Line) :
    (split lines).1 ++ (split lines).2.flatMap Section.lines = lines := by
  induction lines with
  | nil => rfl
  | cons first rest ih =>
      cases heads : first.isHeader with
      | true =>
          rw [split_header heads, List.nil_append, List.flatMap_cons, Section.lines,
            List.cons_append, ih]
      | false => rw [split_plain heads, List.cons_append, ih]

theorem flatMap_lines_split (lines : List Line) :
    (split lines).2.flatMap Section.lines = lines.dropWhile (fun line => !line.isHeader) := by
  induction lines with
  | nil => rfl
  | cons first rest ih =>
      cases heads : first.isHeader with
      | true =>
          have whole := append_lines_split (first :: rest)
          rw [split_header heads, List.nil_append, ← split_header heads] at whole
          rw [whole, List.dropWhile_cons_of_neg (by simp [heads])]
      | false =>
          rw [split_plain heads, List.dropWhile_cons_of_pos (by simp [heads])]
          exact ih

theorem isHeader_of_head? {parts : List Section} (proper : ∀ part ∈ parts, part.Proper)
    {next : Line} (first : (parts.flatMap Section.lines).head? = some next) :
    next.isHeader = true := by
  cases parts with
  | nil => cases first
  | cons part rest =>
      cases first
      exact (proper part (by simp)).header

theorem exists_section_of_header {parts : List Section} (proper : ∀ part ∈ parts, part.Proper)
    {line : Line} (member : line ∈ parts.flatMap Section.lines) (heads : line.isHeader = true) :
    ∃ part ∈ parts, part.header = line := by
  obtain ⟨part, inside, own⟩ := List.mem_flatMap.1 member
  rcases List.mem_cons.1 own with rfl | inBody
  · exact ⟨part, inside, rfl⟩
  · rw [(proper part inside).body line inBody] at heads
    cases heads

theorem split_append (lines : List Line) {others : List Line}
    (headed : others.head?.any Line.isHeader = true) :
    split (lines ++ others) = ((split lines).1, (split lines).2 ++ (split others).2) := by
  induction lines with
  | nil =>
      cases others with
      | nil => cases headed
      | cons header rest =>
          rw [List.nil_append, split_header (by simpa using headed)]
          rfl
  | cons first rest ih =>
      rw [List.cons_append]
      cases heads : first.isHeader with
      | true => rw [split_header heads, split_header heads, ih, List.cons_append]
      | false => rw [split_plain heads, split_plain heads, ih]

/-- The scenes that sections give, or the error of the first one that fails. -/
def scenes (parts : List Section) : Except ParseError (List Scene) :=
  parts.mapM fun part => part.read.result

theorem scenes_error {part : Section} {error : ParseError}
    (failed : part.read.result = .error error) (rest : List Section) :
    scenes (part :: rest) = .error error := by
  rw [scenes, List.mapM_cons, failed]
  rfl

theorem scenes_ok {part : Section} {scene : Scene} (read : part.read.result = .ok scene)
    (rest : List Section) : scenes (part :: rest) = (scenes rest).map (scene :: ·) := by
  rw [scenes, List.mapM_cons, read, scenes]
  cases rest.mapM fun part => part.read.result <;> rfl

theorem scenes_append (parts others : List Section) :
    scenes (parts ++ others) =
      (scenes parts).bind fun front => (scenes others).map (front ++ ·) := by
  induction parts with
  | nil =>
      rw [List.nil_append]
      cases scenes others <;> rfl
  | cons part rest ih =>
      rw [List.cons_append]
      cases read : part.read.result with
      | error error =>
          rw [scenes_error read, scenes_error read]
          rfl
      | ok scene =>
          rw [scenes_ok read, scenes_ok read, ih]
          cases scenes rest with
          | error error => rfl
          | ok front => cases scenes others <;> rfl

theorem scenes_eq_ok {parts : List Section} {scenes : List Scene} :
    Section.scenes parts = .ok scenes ↔
      parts.map (fun part => part.read.result) = scenes.map Except.ok := by
  induction parts generalizing scenes with
  | nil => cases scenes <;> simp [Section.scenes, pure, Except.pure]
  | cons part rest ih =>
      cases read : part.read.result with
      | error error =>
          rw [scenes_error read]
          cases scenes <;> simp [read]
      | ok scene =>
          rw [scenes_ok read, List.map_cons, read]
          cases scenes with
          | nil => cases Section.scenes rest <;> simp [Except.map]
          | cons first others =>
              rw [List.map_cons, List.cons.injEq, ← ih]
              cases Section.scenes rest <;> simp [Except.map]

end Section

namespace Program

theorem result_addSections (program : Program) (parts : List Section) :
    (program.addSections parts).result = (Section.scenes parts).map program.extend := by
  induction parts generalizing program with
  | nil => rfl
  | cons part rest ih =>
      cases read : part.read.result with
      | error error =>
          rw [Section.scenes_error read]
          simp only [addSections, read]
          rfl
      | ok scene =>
          rw [Section.scenes_ok read]
          simp only [addSections, read, ih]
          cases Section.scenes rest <;> rfl

theorem result_parse (text : String) :
    (parse text).result =
      (Section.scenes (Section.split (Line.scan text.toList)).2).map ofScenes :=
  result_addSections empty _

theorem exists_scenes {text : String} {program : Program}
    (parsed : (parse text).result = .ok program) :
    ∃ scenes, Section.scenes (Section.split (Line.scan text.toList)).2 = .ok scenes ∧
      ofScenes scenes = program := by
  rw [result_parse] at parsed
  cases read : Section.scenes (Section.split (Line.scan text.toList)).2 with
  | error error =>
      rw [read] at parsed
      cases parsed
  | ok scenes =>
      rw [read] at parsed
      cases parsed
      exact ⟨scenes, rfl, rfl⟩

end Program

end SceneScript
