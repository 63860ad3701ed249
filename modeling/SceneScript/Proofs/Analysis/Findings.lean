import SceneScript.Analysis.Program

/-!
# What the check finds

A finding is what one of four rules says about a program and its entry scene. The check reports the
diagnostics of exactly these findings.
-/

namespace SceneScript

set_option autoImplicit false

namespace NameSet

theorem contains_foldl_insert (names : List String) (set : NameSet) (name : String) :
    (names.foldl insert set).contains name = true ↔ name ∈ names ∨ set.contains name = true := by
  induction names generalizing set with
  | nil => simp
  | cons first rest ih =>
      rw [List.foldl_cons, ih, contains_insert]
      simp only [Bool.or_eq_true, beq_iff_eq, List.mem_cons]
      exact or_left_comm.trans or_assoc.symm

theorem contains_ofList (names : List String) (name : String) :
    (ofList names).contains name = true ↔ name ∈ names := by
  rw [ofList, contains_foldl_insert]
  simp

end NameSet

theorem Report.hasErrors_eq_false {report : Report} :
    report.hasErrors = false ↔ ∀ diagnostic ∈ report, diagnostic.level ≠ .error := by
  simp [hasErrors, errorCount, count]

namespace Program

variable {program : Program} {entry : String}

theorem contains_jumpTargets {target : String} :
    program.jumpTargets.contains target = true ↔
      ∃ scene ∈ program.scenes.toList, ∃ jump ∈ scene.jumps, jump.target = target := by
  rw [jumpTargets, NameSet.contains_ofList]
  simp only [List.mem_flatMap, List.mem_map]

/-- The rules of the check: what is found, in which scene and at which line. -/
inductive Finds (program : Program) (entry : String) : Finding → String → Option Nat → Prop
  | missingEntry (missing : program.contains entry = false) :
      Finds program entry (.missingEntry entry program.ids) entry none
  | deadStatements {scene : Scene} {jump : Jump} (member : scene ∈ program.scenes.toList)
      (inside : jump ∈ scene.jumps) (followed : jump.behind ≠ 0) :
      Finds program entry (.deadStatements jump.target jump.behind) scene.id (knownLine jump.line)
  | missingTarget {scene : Scene} {jump : Jump} (member : scene ∈ program.scenes.toList)
      (inside : jump ∈ scene.jumps) (missing : program.contains jump.target = false) :
      Finds program entry (.missingTarget jump.target) scene.id (knownLine jump.line)
  | unreferenced {scene : Scene} (member : scene ∈ program.scenes.toList)
      (other : scene.id ≠ entry) (unknown : program.jumpTargets.contains scene.id = false) :
      Finds program entry .unreferenced scene.id (knownLine scene.line)

/-- The check reports the findings of its rules and nothing else. -/
theorem mem_check {diagnostic : Diagnostic} : diagnostic ∈ program.check entry ↔
    ∃ finding scene line, program.Finds entry finding scene line ∧
      finding.diagnostic scene line = diagnostic := by
  simp only [check, checkEntry, checkScene, checkDead, checkTarget, checkReferenced,
    List.mem_append, List.mem_flatMap, List.mem_filterMap, List.mem_ite_nil_left,
    List.mem_singleton, Option.ite_none_left_eq_some, Option.some.injEq, Bool.or_eq_true,
    decide_eq_true_eq, not_or, Bool.not_eq_true]
  constructor
  · rintro ((⟨missing, rfl⟩ | ⟨scene, member, ⟨jump, inside, followed, rfl⟩ |
        ⟨jump, inside, missing, rfl⟩⟩) | ⟨scene, member, ⟨other, unknown⟩, rfl⟩)
    · exact ⟨_, _, _, .missingEntry missing, rfl⟩
    · exact ⟨_, _, _, .deadStatements member inside followed, rfl⟩
    · exact ⟨_, _, _, .missingTarget member inside missing, rfl⟩
    · exact ⟨_, _, _, .unreferenced member other unknown, rfl⟩
  · rintro ⟨finding, id, line, found, rfl⟩
    cases found with
    | missingEntry missing => exact .inl (.inl ⟨missing, rfl⟩)
    | deadStatements member inside followed =>
        exact .inl (.inr ⟨_, member, .inl ⟨_, inside, followed, rfl⟩⟩)
    | missingTarget member inside missing =>
        exact .inl (.inr ⟨_, member, .inr ⟨_, inside, missing, rfl⟩⟩)
    | unreferenced member other unknown => exact .inr ⟨_, member, ⟨other, unknown⟩, rfl⟩

end Program

end SceneScript
