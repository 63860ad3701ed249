import SceneScript.Proofs.Analysis.Findings
import SceneScript.Story.Menu

/-!
# Pruning behind a `go`

Pruning cuts every block, at every depth, right behind its first `go`. A pruned program has nothing
left to warn about, and menus do not notice: a branch has nothing but choices before pruning exactly
if it has nothing but choices after it, because the first statement that is no choice is kept.
-/

namespace SceneScript

set_option autoImplicit false

def Statement.isGo : Statement → Bool
  | .go _ _ => true
  | _ => false

mutual

def Statement.prune : Statement → Statement
  | .act action => .act action
  | .go target line => .go target line
  | .choice label body => .choice label (Block.prune body)
  | .branch condition thenBody elseBody =>
    .branch condition (Block.prune thenBody) (Block.prune elseBody)

/-- A block up to its first `go`, and the same inside every statement. -/
def Block.prune : List Statement → List Statement
  | [] => []
  | statement :: rest => statement.prune :: if statement.isGo then [] else Block.prune rest

end

def Scene.prune (scene : Scene) : Scene :=
  { scene with body := Block.prune scene.body }

/-- Ids, lines and order stay, so the index stays. -/
def Program.prune (program : Program) : Program :=
  { program with
      scenes := program.scenes.map Scene.prune
      indexed := program.indexed.map fun _ => rfl }

def MenuItem.prune (item : MenuItem) : MenuItem :=
  { item with body := Block.prune item.body }

@[simp] theorem Statement.isChoice_prune (statement : Statement) :
    statement.prune.isChoice = statement.isChoice := by
  cases statement <;> rfl

@[simp] theorem Statement.isGo_prune (statement : Statement) :
    statement.prune.isGo = statement.isGo := by
  cases statement <;> rfl

theorem Statement.isChoice_of_isGo {statement : Statement} (leaves : statement.isGo = true) :
    statement.isChoice = false := by
  cases statement <;> first | rfl | cases leaves

namespace Block

variable {statement : Statement} {block rest : Block}

theorem prune_go (leaves : statement.isGo = true) :
    Block.prune (statement :: rest) = [statement.prune] := by
  rw [Block.prune, if_pos leaves]

theorem prune_cons (stays : statement.isGo = false) :
    Block.prune (statement :: rest) = statement.prune :: Block.prune rest := by
  rw [Block.prune, stays]
  rfl

example : Block.prune [.choice "on" [.go "a" 1, .go "b" 2], .go "c" 4, .act (.print "dead")] =
    [.choice "on" [.go "a" 1], .go "c" 4] := rfl

theorem isEmpty_prune (block : Block) : (Block.prune block).isEmpty = block.isEmpty := by
  cases block with
  | nil => rfl
  | cons statement rest => rfl

theorem all_isChoice_prune (block : Block) :
    (Block.prune block).all Statement.isChoice = block.all Statement.isChoice := by
  induction block with
  | nil => rfl
  | cons statement rest ih =>
      cases leaves : statement.isGo with
      | true => simp [prune_go leaves, Statement.isChoice_of_isGo leaves]
      | false => simp [prune_cons leaves, ih]

theorem allChoices_prune (block : Block) :
    Block.allChoices (Block.prune block) = block.allChoices := by
  rw [allChoices, allChoices, isEmpty_prune, all_isChoice_prune]

end Block

theorem MenuItem.ofBlock_prune {block : Block} (choices : block.all Statement.isChoice = true) :
    ofBlock (Block.prune block) = (ofBlock block).map MenuItem.prune := by
  induction block with
  | nil => rfl
  | cons statement rest ih =>
      obtain ⟨first, others⟩ : statement.isChoice = true ∧ rest.all Statement.isChoice = true := by
        simpa only [List.all_cons, Bool.and_eq_true] using choices
      cases statement with
      | choice label body =>
          have later := ih others
          simp only [ofBlock] at later
          rw [Block.prune_cons rfl]
          simp [ofBlock, Statement.prune, ofStatement?, later, MenuItem.prune]
      | act action => cases first
      | go target line => cases first
      | branch condition thenBody elseBody => cases first

namespace Menu

variable (owned : String → Bool)

theorem select_prune (condition : Condition) (thenBody elseBody : Block) :
    select owned condition (Block.prune thenBody) (Block.prune elseBody) =
      (Block.prune (select owned condition thenBody elseBody).1,
        Block.prune (select owned condition thenBody elseBody).2) := by
  unfold select
  split <;> rfl

theorem contribution?_prune (statement : Statement) :
    contribution? owned statement.prune =
      (contribution? owned statement).map (List.map MenuItem.prune) := by
  cases statement with
  | act action => rfl
  | go target line => rfl
  | choice label body => rfl
  | branch condition thenBody elseBody =>
      simp only [Statement.prune, contribution?, select_prune, Block.allChoices_prune,
        Block.isEmpty_prune]
      split
      · rename_i choices
        have every := (Bool.and_eq_true_iff.1 choices).2
        rw [MenuItem.ofBlock_prune every]
        rfl
      · split <;> rfl

theorem isGo_of_contribution {statement : Statement} {items : List MenuItem}
    (adds : contribution? owned statement = some items) : statement.isGo = false := by
  cases statement <;> first | rfl | cases adds

theorem takeItems_prune (block : Block) :
    takeItems owned (Block.prune block) =
      ((takeItems owned block).1.map MenuItem.prune, (takeItems owned block).2) := by
  induction block with
  | nil => rfl
  | cons statement rest ih =>
      have same := contribution?_prune owned statement
      cases adds : contribution? owned statement with
      | none =>
          rw [adds] at same
          simp [Block.prune, takeItems, adds, same]
      | some items =>
          rw [adds] at same
          rw [Block.prune_cons (isGo_of_contribution owned adds)]
          simp [takeItems, adds, same, ih]

/-- What stands behind a menu is pruned by itself: no `go` stands inside a menu. -/
theorem drop_takeItems_prune (block : Block) :
    (Block.prune block).drop (takeItems owned block).2 =
      Block.prune (block.drop (takeItems owned block).2) := by
  induction block with
  | nil => rfl
  | cons statement rest ih =>
      cases adds : contribution? owned statement with
      | none => simp [takeItems, adds]
      | some items =>
          rw [Block.prune_cons (isGo_of_contribution owned adds)]
          simp [takeItems, adds, ih]

end Menu

mutual

theorem Statement.behind_prune (statement : Statement) :
    ∀ visit ∈ statement.prune.innerVisits, visit.statement.isGo = true → visit.behind = [] := by
  cases statement with
  | act action => simp [Statement.prune, Statement.innerVisits]
  | go target line => simp [Statement.prune, Statement.innerVisits]
  | choice label body => exact Block.behind_prune body
  | branch condition thenBody elseBody =>
      exact List.forall_mem_append.2 ⟨Block.behind_prune thenBody, Block.behind_prune elseBody⟩

theorem Block.behind_prune (block : List Statement) :
    ∀ visit ∈ Block.visits (Block.prune block),
      visit.statement.isGo = true → visit.behind = [] := by
  cases block with
  | nil => simp [Block.prune, Block.visits]
  | cons statement rest =>
      have inner := Statement.behind_prune statement
      have later := Block.behind_prune rest
      rw [Block.prune, Block.visits]
      refine List.forall_mem_cons.2 ⟨?_, List.forall_mem_append.2 ⟨inner, ?_⟩⟩
      · intro leaves
        rw [Statement.isGo_prune] at leaves
        exact if_pos leaves
      · split
        · simp [Block.visits]
        · exact later

end

namespace Program

variable (program : Program)

theorem scene?_prune (id : String) :
    program.prune.scene? id = (program.scene? id).map Scene.prune := by
  simp only [scene?, prune, Array.getElem?_map]
  cases program.index[id]? <;> rfl

theorem behind_jumps_prune {scene : Scene} (member : scene ∈ program.prune.scenes.toList)
    {jump : Jump} (inside : jump ∈ scene.jumps) : jump.behind = 0 := by
  rw [prune, Array.toList_map] at member
  obtain ⟨original, -, rfl⟩ := List.mem_map.1 member
  obtain ⟨visit, met, taken⟩ := List.mem_filterMap.1 inside
  have last := Block.behind_prune original.body visit met
  unfold Visit.jump? at taken
  split at taken
  · rename_i target line leaves
    rw [leaves] at last
    rw [← Option.some.inj taken, last rfl]
    rfl
  · cases taken

theorem check_prune (entry : String) :
    ∀ diagnostic ∈ program.prune.check entry, diagnostic.level ≠ .warn := by
  intro diagnostic reported warns
  obtain ⟨finding, scene, line, found, rfl⟩ := mem_check.1 reported
  cases found with
  | missingEntry missing => cases warns
  | deadStatements member inside followed =>
      exact followed (program.behind_jumps_prune member inside)
  | missingTarget member inside missing => cases warns
  | unreferenced member other unknown => cases warns

end Program

end SceneScript
