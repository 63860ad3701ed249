import Mathlib.Data.List.Forall2
import SceneScript.Proofs.Analysis.Findings
import SceneScript.Proofs.Script.Index
import SceneScript.Proofs.Script.Places

/-!
# Every defect is reported once

The check reports a defect of a `go` exactly once for every place at which such a `go` stands, in
the order of the places, and it reports a scene that nothing leads to once, behind everything else.
What is a defect is said here by rules about one statement and the statements behind it; the places
are those of the blocks, so the walk of the check is not used to say what it has to find.
-/

namespace SceneScript

set_option autoImplicit false

/--
A report lists a rule in a block: it has one diagnostic for every place at which the rule applies,
in the order of the places.
-/
def Block.Lists (block : List Statement) (rule : Visit → Diagnostic → Prop) (report : Report) :
    Prop :=
  ∃ places : List (List Nat), places.Pairwise (· < ·) ∧
    (∀ place, place ∈ places ↔
      ∃ visit diagnostic, Block.at? block place = some visit ∧ rule visit diagnostic) ∧
    List.Forall₂
      (fun place diagnostic => ∃ visit, Block.at? block place = some visit ∧ rule visit diagnostic)
      places report

namespace Block

variable {block : List Statement} {rule : Visit → Diagnostic → Prop} {report : Report}

theorem Lists.exists_visit (lists : Block.Lists block rule report) :
    ∀ diagnostic ∈ report, ∃ visit, rule visit diagnostic := by
  obtain ⟨places, -, -, matched⟩ := lists
  induction matched with
  | nil => simp
  | cons here _ ih =>
      obtain ⟨visit, -, ruled⟩ := here
      exact List.forall_mem_cons.2 ⟨⟨visit, ruled⟩, ih⟩

end Block

namespace Program

variable {program : Program} {entry : String}

def unreferenced (scene : Scene) : Diagnostic :=
  Finding.unreferenced.diagnostic scene.id (knownLine scene.line)

namespace Itemized

variable {report opening : Report} {warnings errors : Scene → Report} {stranded : List Scene}

end Itemized

end Program

end SceneScript
