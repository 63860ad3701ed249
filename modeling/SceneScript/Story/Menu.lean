import SceneScript.Script.Statement

/-!
# Menus

Choices that follow one another in a block are offered together. A branch belongs to the menu if it
chooses between choices: the part that its condition selects has nothing but choices, or it is empty
and the other part has nothing but choices. Any other statement ends the menu and is left for later.
-/

namespace SceneScript

set_option autoImplicit false

structure MenuItem where
  label : String
  body : Block
deriving DecidableEq

namespace MenuItem

def ofStatement? : Statement → Option MenuItem
  | .choice label body => some ⟨label, body⟩
  | _ => none

def ofBlock (block : Block) : List MenuItem :=
  block.filterMap ofStatement?

end MenuItem

namespace Menu

/-- The part of a branch that the condition selects, and the other one. -/
def select (owned : String → Bool) (condition : Condition) (thenBody elseBody : Block) :
    Block × Block :=
  if condition.eval owned then (thenBody, elseBody) else (elseBody, thenBody)

theorem size_select_le (owned : String → Bool) (condition : Condition)
    (thenBody elseBody : Block) :
    Block.size (select owned condition thenBody elseBody).1 ≤
      Block.size thenBody + Block.size elseBody := by
  unfold select
  split
  · exact Nat.le_add_right _ _
  · exact Nat.le_add_left _ _

/-- What a statement adds to a menu; none if it ends the menu. -/
def contribution? (owned : String → Bool) : Statement → Option (List MenuItem)
  | .choice label body => some [⟨label, body⟩]
  | .branch condition thenBody elseBody =>
    let (selected, other) := select owned condition thenBody elseBody
    if Block.allChoices selected then some (MenuItem.ofBlock selected)
    else if selected.isEmpty && Block.allChoices other then some []
    else none
  | _ => none

/-- The items at the front of a block, and how many statements they take up. -/
def takeItems (owned : String → Bool) : Block → List MenuItem × Nat
  | [] => ([], 0)
  | statement :: rest =>
    match contribution? owned statement with
    | none => ([], 0)
    | some items =>
      let (others, taken) := takeItems owned rest
      (items ++ others, taken + 1)

/-- The items from a position on, and the position behind them. -/
def collect (owned : String → Bool) (block : Block) (start : Nat) : List MenuItem × Nat :=
  let (items, taken) := takeItems owned (block.drop start)
  (items, start + taken)

/-- The names that taking items looks up, in order. -/
def queries (owned : String → Bool) : Block → List String
  | [] => []
  | statement :: rest =>
    let asked := match statement with
      | .branch condition _ _ => condition.queries owned
      | _ => []
    if (contribution? owned statement).isSome then asked ++ queries owned rest else asked

end Menu

end SceneScript
