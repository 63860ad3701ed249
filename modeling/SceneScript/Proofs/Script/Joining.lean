import Mathlib.Data.List.Basic
import SceneScript.Proofs.Script.Reading
import SceneScript.Proofs.Script.Shifting

/-!
# One script behind another

A script that begins with a header can be put behind any other. A block that is still open there
ends with its scene, so the two are read as if each were alone: the scenes of the second are
inserted into the program of the first, and its numbers count from where it starts. The warnings
follow each other, those apart that report a scene defined again: a scene that both scripts define
is such a case only for the two together. An error of the first script ends reading before the
second is looked at.
-/

namespace SceneScript

set_option autoImplicit false

def Warning.isDuplicate (warning : Warning) : Bool :=
  match warning.notice with
  | .duplicate _ => true
  | _ => false

/-- The warnings that are about the lines themselves and not about scenes defined before. -/
def Outcome.remarks {α : Type} (outcome : Outcome α) : List Warning :=
  outcome.warnings.filter fun warning => !warning.isDuplicate

def Warning.Local (warnings : List Warning) : Prop :=
  ∀ warning ∈ warnings, warning.isDuplicate = false

namespace Warning

theorem filter_of_local {warnings : List Warning} (plain : Local warnings) :
    warnings.filter (fun warning => !warning.isDuplicate) = warnings := by
  apply List.filter_eq_self.2
  intro warning member
  rw [plain warning member]
  rfl

theorem local_append {warnings others : List Warning} (first : Local warnings)
    (second : Local others) : Local (warnings ++ others) := by
  intro warning member
  cases List.mem_append.1 member with
  | inl inside => exact first warning inside
  | inr inside => exact second warning inside

theorem local_singleton {warning : Warning} (plain : warning.isDuplicate = false) :
    Local [warning] := by
  intro other member
  rw [List.mem_singleton.1 member]
  exact plain

end Warning

theorem Line.local_of_read {line : Line} {reading : Reading} (read : line.read = .ok reading) :
    Warning.Local reading.warnings := by
  cases read_cases read with
  | inl started =>
      cases started.warnings with
      | inl silent =>
          rw [silent]
          exact List.forall_mem_nil _
      | inr remark =>
          obtain ⟨ignored, given⟩ := remark
          rw [given]
          exact Warning.local_singleton rfl
  | inr passed =>
      obtain ⟨notice, rfl, skips⟩ := passed.skipped
      apply Warning.local_singleton
      cases notice with
      | duplicate id => cases skips
      | _ => rfl

namespace Nest

theorem local_of_step {nest next : Nest} {line : Line} {warnings : List Warning}
    (stepped : nest.step line = .ok (next, warnings)) : Warning.Local warnings := by
  unfold step at stepped
  cases closes : nest.close? line with
  | some closed =>
      rw [closes] at stepped
      cases stepped
      exact List.forall_mem_nil _
  | none =>
      rw [closes] at stepped
      cases read : line.read with
      | error error =>
          rw [read] at stepped
          cases stepped
      | ok reading =>
          rw [read] at stepped
          cases stepped
          exact Line.local_of_read read

theorem local_finish (recent : List Statement) (blocks : List OpenBlock) :
    Warning.Local (finish recent blocks).1 := by
  induction blocks generalizing recent with
  | nil => exact List.forall_mem_nil _
  | cons block outer ih =>
      rw [finish]
      exact List.forall_mem_cons.2 ⟨rfl, ih _⟩

theorem local_readLines (nest : Nest) (lines : List Line) :
    Warning.Local (nest.readLines lines).1 := by
  induction lines generalizing nest with
  | nil => exact local_finish nest.recent nest.blocks
  | cons line rest ih =>
      rw [readLines]
      cases stepped : nest.step line with
      | error error => exact List.forall_mem_nil _
      | ok result =>
          obtain ⟨next, warnings⟩ := result
          exact Warning.local_append (local_of_step stepped) (ih next)

end Nest

namespace Section

theorem local_read (part : Section) : Warning.Local part.read.warnings := by
  unfold read
  cases part.header.argument? with
  | none => exact List.forall_mem_nil _
  | some id => exact Nest.local_readLines Nest.start part.body

/-- The warnings of sections that are read one by one, up to the first that fails. -/
def remarks : List Section → List Warning
  | [] => []
  | part :: rest => part.read.warnings ++ if part.read.result.isOk then remarks rest else []

theorem remarks_append {parts : List Section} {scenes : List Scene}
    (read : Section.scenes parts = .ok scenes) (others : List Section) :
    remarks (parts ++ others) = remarks parts ++ remarks others := by
  induction parts generalizing scenes with
  | nil => rfl
  | cons part rest ih =>
      cases first : part.read.result with
      | error error =>
          rw [scenes_error first] at read
          cases read
      | ok scene =>
          rw [scenes_ok first] at read
          cases later : Section.scenes rest with
          | error error =>
              rw [later] at read
              cases read
          | ok found =>
              rw [List.cons_append, remarks, remarks, first, ih later, List.append_assoc]
              rfl

theorem remarks_shift (offset : Nat) (parts : List Section) :
    remarks (parts.map (shift offset)) = (remarks parts).map (Warning.shift offset) := by
  induction parts with
  | nil => rfl
  | cons part rest ih =>
      rw [List.map_cons, remarks, remarks, read_shift, ih]
      cases part.read.result with
      | error error => simp [ParseError.shiftResult, Except.isOk, Except.toBool]
      | ok scene => simp [ParseError.shiftResult, Except.isOk, Except.toBool]

theorem split_scan_append (text : String) {other : String}
    (headed : (Line.scan other.toList).head?.any Line.isHeader = true) :
    split (Line.scan (text ++ "\n" ++ other).toList) =
      ((split (Line.scan text.toList)).1, (split (Line.scan text.toList)).2 ++
        (split (Line.scan other.toList)).2.map (shift (1 + text.toList.count '\n'))) := by
  have letters : (text ++ "\n" ++ other).toList = text.toList ++ '\n' :: other.toList := by
    simp
  have moved : ((Line.scan other.toList).map (Line.shift (1 + text.toList.count '\n'))).head?.any
      Line.isHeader = true := by
    rw [List.head?_map, Option.any_map]
    exact headed
  rw [letters, Line.scan_append, split_append _ moved, split_shift]

end Section

namespace Program

def shift (offset : Nat) (program : Program) : Program :=
  { program with
      scenes := program.scenes.map (Scene.shift offset)
      indexed := program.indexed.map fun _ => rfl }

@[simp] theorem scenes_shift (offset : Nat) (program : Program) :
    (program.shift offset).scenes = program.scenes.map (Scene.shift offset) :=
  rfl

@[simp] theorem index_shift (offset : Nat) (program : Program) :
    (program.shift offset).index = program.index :=
  rfl

theorem insert_shift (offset : Nat) (program : Program) (scene : Scene) :
    ((program.shift offset).insert (scene.shift offset)).1 =
      (program.insert scene).1.shift offset := by
  have same : (program.shift offset).index[(scene.shift offset).id]? =
      program.index[scene.id]? := rfl
  cases found : program.index[scene.id]? with
  | some position =>
      have moved := same.trans found
      apply Program.ext
      · simp [scenes_insert_of_known moved, scenes_insert_of_known found]
      · simp [index_insert_of_known moved, index_insert_of_known found]
  | none =>
      have moved := same.trans found
      apply Program.ext
      · simp [scenes_insert_of_new moved, scenes_insert_of_new found]
      · rw [index_shift, index_insert_of_new moved, index_insert_of_new found]
        simp [Scene.shift]

theorem extend_shift (offset : Nat) (program : Program) (scenes : List Scene) :
    (program.shift offset).extend (scenes.map (Scene.shift offset)) =
      (program.extend scenes).shift offset := by
  induction scenes generalizing program with
  | nil => rfl
  | cons scene rest ih => rw [List.map_cons, extend_cons, insert_shift, ih, extend_cons]

/-- The scenes of a finished program can be inserted in place of all those it was made from. -/
theorem extend_scenes_shift (program : Program) (offset : Nat) (scenes : List Scene) :
    program.extend ((ofScenes scenes).scenes.toList.map (Scene.shift offset)) =
      program.extend (scenes.map (Scene.shift offset)) := by
  have moved : (ofScenes scenes).scenes.toList.map (Scene.shift offset) =
      (empty.extend (scenes.map (Scene.shift offset))).scenes.toList := by
    have whole := extend_shift offset empty scenes
    rw [show empty.shift offset = empty by simp [shift, empty]] at whole
    rw [whole]
    exact Array.toList_map.symm
  rw [moved, extend_extend]
  rfl

theorem remarks_addSections (program : Program) (parts : List Section) :
    (program.addSections parts).remarks = Section.remarks parts := by
  induction parts generalizing program with
  | nil => rfl
  | cons part rest ih =>
      have own := Warning.filter_of_local (Section.local_read part)
      rw [Section.remarks]
      cases read : part.read.result with
      | error error =>
          simp only [addSections, read, Outcome.remarks, own]
          simp [Except.isOk, Except.toBool]
      | ok scene =>
          have later := ih (program.insert scene).1
          simp only [Outcome.remarks] at later
          simp only [addSections, read, Outcome.remarks, List.filter_append, own, later]
          cases (program.insert scene).2 <;>
            simp [Except.isOk, Except.toBool, Warning.isDuplicate]

theorem addSections_append_of_error {program : Program} {parts : List Section} {error : ParseError}
    (failed : (program.addSections parts).result = .error error) (others : List Section) :
    program.addSections (parts ++ others) = program.addSections parts := by
  induction parts generalizing program with
  | nil => cases failed
  | cons part rest ih =>
      rw [List.cons_append]
      cases read : part.read.result with
      | error error => simp only [addSections, read]
      | ok scene =>
          simp only [addSections, read] at failed ⊢
          rw [ih failed]

theorem remarks_ofLines (lines : List Line) :
    (ofLines lines).remarks =
      (Section.split lines).1.map (fun line =>
          line.warn (.outsideScene (String.ofList line.text))) ++
        Section.remarks (Section.split lines).2 := by
  have later := remarks_addSections empty (Section.split lines).2
  simp only [Outcome.remarks] at later
  simp only [Outcome.remarks, ofLines, List.filter_append, later]
  congr 1
  apply Warning.filter_of_local
  intro warning member
  obtain ⟨line, -, rfl⟩ := List.mem_map.1 member
  rfl

section

variable {text other : String} {program : Program}

theorem parse_append_of_error {error : ParseError} (failed : (parse text).result = .error error)
    (headed : (Line.scan other.toList).head?.any Line.isHeader = true) :
    parse (text ++ "\n" ++ other) = parse text := by
  simp only [parse, ofLines, Section.split_scan_append text headed] at failed ⊢
  rw [addSections_append_of_error failed]

theorem result_parse_append (read : (parse text).result = .ok program)
    (headed : (Line.scan other.toList).head?.any Line.isHeader = true) :
    (parse (text ++ "\n" ++ other)).result =
      ParseError.shiftResult (1 + text.toList.count '\n')
        (fun added => program.extend
          (added.scenes.toList.map (Scene.shift (1 + text.toList.count '\n'))))
        (parse other).result := by
  obtain ⟨front, first, rfl⟩ := exists_scenes read
  rw [result_parse, Section.split_scan_append text headed, Section.scenes_append, first,
    Section.scenes_shift, result_parse]
  cases Section.scenes (Section.split (Line.scan other.toList)).2 with
  | error error => rfl
  | ok scenes =>
      simp only [ParseError.shiftResult, Except.map, extend_scenes_shift]
      exact congrArg Except.ok (extend_append empty _ _)

theorem remarks_parse_append (read : (parse text).result = .ok program)
    (headed : (Line.scan other.toList).head?.any Line.isHeader = true) :
    (parse (text ++ "\n" ++ other)).remarks = (parse text).remarks ++
      (parse other).remarks.map (Warning.shift (1 + text.toList.count '\n')) := by
  obtain ⟨front, first, rfl⟩ := exists_scenes read
  -- nothing stands before the first header of the second script
  have bare : (Section.split (Line.scan other.toList)).1 = [] :=
    congrArg Prod.fst (Section.split_append [] headed)
  simp only [parse, remarks_ofLines, Section.split_scan_append text headed, bare,
    Section.remarks_append first, Section.remarks_shift, List.map_nil, List.nil_append,
    List.append_assoc]

end

/--
A script behind another one. If the first fails, nothing of the second is seen. If it is read, the
second is read as by itself, only further down: the error of the whole is that of the second, or its
scenes are inserted into the program of the first; and the warnings of the second, without those of
scenes that are defined again, follow those of the first.
-/
theorem parse_append (text other : String)
    (headed : (Line.scan other.toList).head?.any Line.isHeader = true) :
    let offset := 1 + text.toList.count '\n'
    let joined := parse (text ++ "\n" ++ other)
    (∀ error, (parse text).result = .error error →
      joined.result = .error error ∧ joined.warnings = (parse text).warnings) ∧
    ∀ program, (parse text).result = .ok program →
      (∀ error, (parse other).result = .error error →
        joined.result = .error (error.shift offset)) ∧
      (∀ added, (parse other).result = .ok added →
        joined.result = .ok (program.extend (added.scenes.toList.map (Scene.shift offset)))) ∧
      joined.remarks =
        (parse text).remarks ++ (parse other).remarks.map (Warning.shift offset) := by
  intro offset joined
  refine ⟨?_, ?_⟩
  · intro error failed
    have whole : joined = parse text := parse_append_of_error failed headed
    rw [whole]
    exact ⟨failed, rfl⟩
  · intro program read
    have result := result_parse_append read headed
    refine ⟨?_, ?_, remarks_parse_append read headed⟩
    · intro error failed
      rw [failed] at result
      exact result
    · intro added again
      rw [again] at result
      exact result

/-- A script that ends inside two blocks, with a word too many behind `then`. -/
def attic : String :=
  "scene attic\nchoice \"Down\"\nif lamp then now\ngo attic"

/-- A script that defines the same scene again and closes a block that it has not opened. -/
def atticAgain : String :=
  "scene attic\nend\ngo attic"

theorem parse_append_attic :
    ∃ program added, (parse attic).result = .ok program ∧ (parse atticAgain).result = .ok added ∧
      added.scenes = #[⟨"attic", 1, [.go "attic" 3]⟩] ∧
      (parse (attic ++ "\n" ++ atticAgain)).result =
        .ok (program.extend [⟨"attic", 5, [.go "attic" 7]⟩]) ∧
      (parse (attic ++ "\n" ++ atticAgain)).remarks =
        [⟨3, .afterThen "now"⟩, ⟨3, .missingEnd .branch⟩, ⟨2, .missingEnd .choice⟩,
          ⟨6, .stray .done⟩] := by
  have first : Section.scenes (Section.split (Line.scan attic.toList)).2 =
      .ok [⟨"attic", 1, [.choice "Down" [.branch (.ident "lamp") [.go "attic" 4] []]]⟩] := by
    decide +kernel
  have second : Section.scenes (Section.split (Line.scan atticAgain.toList)).2 =
      .ok [⟨"attic", 1, [.go "attic" 3]⟩] := by
    decide +kernel
  have read := result_parse attic
  have again := result_parse atticAgain
  rw [first] at read
  rw [second] at again
  obtain ⟨-, joined⟩ := parse_append attic atticAgain (by decide +kernel)
  obtain ⟨-, result, remarks⟩ := joined _ read
  exact ⟨_, _, read, again, by decide +kernel, result _ again, remarks.trans (by decide +kernel)⟩

/-- Behind a header without an id, the unknown line of the second script is not reported. -/
theorem remarks_behind_error :
    (Line.scan "scene b\nhum".toList).head?.any Line.isHeader = true ∧
    (parse ("scene" ++ "\n" ++ "scene b\nhum")).remarks ≠
      (parse "scene").remarks ++ (parse "scene b\nhum").remarks.map
        (Warning.shift (1 + "scene".toList.count '\n')) := by
  decide +kernel

end Program

end SceneScript
