import SceneScript.Proofs.Analysis.Findings
import SceneScript.Proofs.Script.Index
import SceneScript.Proofs.Story.Coverage

/-!
# The check is sound for running

A session that is only ever started at the entry scene enters no scene but the entry and the targets
that the walk through the program collects. So a program that is checked without an error never
comes to a scene that does not exist, and a scene that is reported as unreferenced is never entered.
-/

namespace SceneScript

set_option autoImplicit false

namespace Program

variable {program : Program} {entry id : String}

theorem everywhere_jumpTargets (program : Program) :
    program.Everywhere fun statement => ∀ target line, statement = .go target line →
      program.jumpTargets.contains target = true := by
  intro scene member visit inside target line leaves
  refine contains_jumpTargets.2 ⟨scene, member, ⟨target, line, visit.behind.length⟩, ?_, rfl⟩
  refine List.mem_filterMap.2 ⟨visit, inside, ?_⟩
  rw [Visit.jump?, leaves]

theorem exists_scene_of_contains (known : program.contains id = true) :
    ∃ scene, program.scene? id = some scene := by
  rw [contains_eq_isSome] at known
  exact Option.isSome_iff_exists.1 known

/-- Without an error the entry and every target exist. -/
theorem contains_of_clean (clean : (program.check entry).hasErrors = false)
    (named : id = entry ∨ program.jumpTargets.contains id = true) : program.contains id = true := by
  have quiet := Report.hasErrors_eq_false.1 clean
  cases missing : program.contains id with
  | true => rfl
  | false =>
      exfalso
      rcases named with rfl | target
      · exact quiet _ (mem_check.2 ⟨_, _, _, .missingEntry missing, rfl⟩) rfl
      · obtain ⟨scene, member, jump, inside, rfl⟩ := contains_jumpTargets.1 target
        exact quiet _ (mem_check.2 ⟨_, _, _, .missingTarget member inside missing, rfl⟩) rfl

theorem unreferenced_of_info {diagnostic : Diagnostic} (member : diagnostic ∈ program.check entry)
    (info : diagnostic.level = .info) :
    diagnostic.scene ≠ entry ∧ program.jumpTargets.contains diagnostic.scene = false := by
  obtain ⟨finding, scene, line, found, rfl⟩ := mem_check.1 member
  cases found with
  | missingEntry missing => cases info
  | deadStatements member inside followed => cases info
  | missingTarget member inside missing => cases info
  | unreferenced member other unknown => exact ⟨other, unknown⟩

end Program

namespace Session

theorem everywhere_new {good : Statement → Prop} {program : Program}
    (holds : program.Everywhere good) : (new program).Everywhere good :=
  ⟨holds, Machine.everywhere_idle⟩

theorem itinerary_named {program : Program} {entry : String} {requests : List Request}
    (only : ∀ id, .start id ∈ requests → id = entry) :
    ∀ id ∈ (new program).itinerary requests,
      id = entry ∨ program.jumpTargets.contains id = true := by
  intro id member
  have covered := everywhere_itinerary (reached_new program)
    (everywhere_new program.everywhere_jumpTargets) requests id member
  rcases covered with started | ⟨line, followed⟩
  · exact .inl (only id started)
  · exact .inr (followed id line rfl)

/--
Along any requests that start no scene but the entry: the scene of the state is the last one that
was entered, and every scene that is entered is the entry or a target of a `go`. If the check finds
no error, every one of them exists, so none is shown as missing. None of them is a scene that the
check reports as unreferenced.
-/
theorem itinerary_sound (program : Program) (entry : String) (requests : List Request)
    (only : ∀ id, .start id ∈ requests → id = entry) :
    let session := (new program).replay requests
    let visited := (new program).itinerary requests
    session.state.scene = visited.getLast? ∧
    (∀ id, session.state.scene = some id →
      id = entry ∨ program.jumpTargets.contains id = true) ∧
    (∀ id ∈ visited, id = entry ∨ program.jumpTargets.contains id = true) ∧
    ((program.check entry).hasErrors = false →
      ∀ id ∈ visited, ∃ scene, program.scene? id = some scene) ∧
    (∀ diagnostic ∈ program.check entry, diagnostic.level = .info →
      diagnostic.scene ∉ visited) := by
  intro session visited
  have last : session.state.scene = visited.getLast? := by
    rw [scene_replay (reached_new program)]
    exact Option.or_none
  have named : ∀ id ∈ visited, id = entry ∨ program.jumpTargets.contains id = true :=
    itinerary_named only
  refine ⟨last, ?_, named, ?_, ?_⟩
  · intro id current
    rw [last] at current
    exact named id (List.mem_of_getLast? current)
  · intro clean id member
    exact Program.exists_scene_of_contains (Program.contains_of_clean clean (named id member))
  · intro diagnostic member info entered
    obtain ⟨other, unknown⟩ := Program.unreferenced_of_info member info
    rcases named _ entered with same | target
    · exact other same
    · rw [unknown] at target
      cases target

/-- A hall with a menu, the cellar below it and an attic that nothing leads to. -/
def house : Program :=
  .ofScenes [
    ⟨"hall", 1, [.choice "down" [.go "cellar" 3], .choice "stay" []]⟩,
    ⟨"cellar", 6, [.act (.print "dark")]⟩,
    ⟨"attic", 8, []⟩]

theorem itinerary_sound_house :
    let visited := (new house).itinerary [.start "hall", .tick (some (.choose 0)), .tick none]
    visited = ["hall", "cellar"] ∧ (house.check "hall").hasErrors = false ∧
      (∀ id ∈ visited, ∃ scene, house.scene? id = some scene) ∧
      Finding.unreferenced.diagnostic "attic" (some 8) ∈ house.check "hall" ∧
      "attic" ∉ visited := by
  have clean : (house.check "hall").hasErrors = false := by decide +kernel
  have reported : Finding.unreferenced.diagnostic "attic" (some 8) ∈ house.check "hall" := by
    decide +kernel
  obtain ⟨-, -, -, exist, absent⟩ := itinerary_sound house "hall"
    [.start "hall", .tick (some (.choose 0)), .tick none] (by simp)
  exact ⟨by decide +kernel, clean, exist clean, reported, absent _ reported rfl⟩

end Session

end SceneScript
