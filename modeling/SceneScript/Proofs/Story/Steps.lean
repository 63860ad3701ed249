import SceneScript.Story.Machine

/-!
# What one step of a machine does

A stack with no menu pending looks only at the statement that its innermost frame reaches. There is
one equation for each kind of statement and one for a frame that is done. Menus come with the bound
that makes every selection lower the weight of the stack.
-/

namespace SceneScript

set_option autoImplicit false

theorem Block.size_drop_le (block : Block) (count : Nat) :
    Block.size (block.drop count) ≤ Block.size block := by
  induction block generalizing count with
  | nil => simp
  | cons statement rest ih =>
      cases count with
      | zero => simp
      | succ count =>
          have bound := ih count
          simp only [List.drop_succ_cons, Block.size]
          omega

theorem Block.drop_of_reached {block : Block} {position : Nat} {statement : Statement}
    (reached : block[position]? = some statement) :
    block.drop position = statement :: block.drop (position + 1) := by
  obtain ⟨bound, same⟩ := List.getElem?_eq_some_iff.1 reached
  rw [List.drop_eq_getElem_cons bound, same]

theorem Frame.reached {frame : Frame} {statement : Statement} {behind : Block}
    (next : frame.rest = statement :: behind) : frame.body[frame.position]? = some statement := by
  rw [← List.head?_drop]
  exact congrArg List.head? next

theorem Frame.reached_end {frame : Frame} (next : frame.rest = []) :
    frame.body[frame.position]? = none := by
  rw [← List.head?_drop]
  exact congrArg List.head? next

namespace Menu

theorem size_ofBlock_lt {block : Block} {item : MenuItem} (member : item ∈ MenuItem.ofBlock block) :
    Block.size item.body < Block.size block := by
  induction block with
  | nil => simp [MenuItem.ofBlock] at member
  | cons statement rest ih =>
      have later : item ∈ MenuItem.ofBlock rest →
          Block.size item.body < Block.size (statement :: rest) := by
        intro inRest
        have bound := ih inRest
        simp only [Block.size]
        omega
      cases statement with
      | choice label body =>
          have split : item = ⟨label, body⟩ ∨ item ∈ MenuItem.ofBlock rest := by
            simpa [MenuItem.ofBlock, MenuItem.ofStatement?] using member
          rcases split with rfl | inRest
          · simp only [Block.size, Statement.size]
            omega
          · exact later inRest
      | act action => exact later (by simpa [MenuItem.ofBlock, MenuItem.ofStatement?] using member)
      | go target line =>
          exact later (by simpa [MenuItem.ofBlock, MenuItem.ofStatement?] using member)
      | branch condition thenBody elseBody =>
          exact later (by simpa [MenuItem.ofBlock, MenuItem.ofStatement?] using member)

theorem size_contribution_lt {owned : String → Bool} {statement : Statement}
    {items : List MenuItem} {item : MenuItem} (adds : contribution? owned statement = some items)
    (member : item ∈ items) : Block.size item.body < statement.size := by
  cases statement with
  | act action => simp [contribution?] at adds
  | go target line => simp [contribution?] at adds
  | choice label body =>
      simp only [contribution?, Option.some.injEq] at adds
      subst adds
      rw [List.mem_singleton.1 member]
      simp only [Statement.size]
      omega
  | branch condition thenBody elseBody =>
      have part := size_select_le owned condition thenBody elseBody
      simp only [contribution?] at adds
      split at adds
      · have same := Option.some.inj adds
        rw [← same] at member
        have inside := size_ofBlock_lt member
        simp only [Statement.size]
        omega
      · split at adds
        · have same := Option.some.inj adds
          rw [← same] at member
          simp at member
        · exact absurd adds (by simp)

/-- An item and what stands behind the menu are both inside the block, and do not overlap. -/
theorem size_takeItems_lt {owned : String → Bool} {block : Block} {item : MenuItem}
    (member : item ∈ (takeItems owned block).1) :
    Block.size item.body + Block.size (block.drop (takeItems owned block).2) <
      Block.size block := by
  induction block with
  | nil => simp [takeItems] at member
  | cons statement rest ih =>
      cases adds : contribution? owned statement with
      | none => simp [takeItems, adds] at member
      | some items =>
          simp only [takeItems, adds, List.mem_append] at member ⊢
          simp only [List.drop_succ_cons, Block.size]
          rcases member with own | later
          · have inside := size_contribution_lt adds own
            have behind := Block.size_drop_le rest (takeItems owned rest).2
            omega
          · have inside := ih later
            omega

theorem size_collect_lt {owned : String → Bool} {block : Block} {start : Nat} {item : MenuItem}
    (member : item ∈ (collect owned block start).1) :
    Block.size item.body + Block.size (block.drop (collect owned block start).2) <
      Block.size (block.drop start) := by
  have bound : Block.size item.body +
      Block.size ((block.drop start).drop (takeItems owned (block.drop start)).2) <
        Block.size (block.drop start) := size_takeItems_lt member
  simpa only [collect, List.drop_drop] using bound

theorem collect_choice {owned : String → Bool} {block behind : Block} {start : Nat}
    {label : String} {body : Block} (next : block.drop start = .choice label body :: behind) :
    ∃ others, (collect owned block start).1 = ⟨label, body⟩ :: others := by
  refine ⟨(takeItems owned behind).1, ?_⟩
  simp [collect, next, takeItems, contribution?]

end Menu

namespace Machine

variable {state : State} {frame : Frame} {below : Stack} {behind : Block}

theorem runStack_nil : runStack state [] = ⟨.completed, idle, state, []⟩ := by
  rw [runStack]

theorem runStack_done (next : frame.rest = []) :
    runStack state (frame :: below) = runStack state below := by
  rw [runStack]
  split <;> simp_all

theorem runStack_act {action : Action} (next : frame.rest = .act action :: behind) :
    runStack state (frame :: below) =
      (runStack (action.perform state).1 (frame.advance :: below)).before
        (action.perform state).2 := by
  rw [runStack]
  split <;> simp_all

theorem runStack_go {target : String} {line : Nat}
    (next : frame.rest = .go target line :: behind) :
    runStack state (frame :: below) = ⟨.transferred target, idle, state, []⟩ := by
  rw [runStack]
  split <;> simp_all

theorem runStack_choice {label : String} {body : Block}
    (next : frame.rest = .choice label body :: behind) :
    runStack state (frame :: below) =
      { flow := .suspended (Menu.collect state.game.has frame.body frame.position).1.length
        machine :=
          ⟨{ frame with position := (Menu.collect state.game.has frame.body frame.position).2 } ::
              below,
            some (Menu.collect state.game.has frame.body frame.position).1⟩
        state := state
        commands := [.presentChoices
          ((Menu.collect state.game.has frame.body frame.position).1.map MenuItem.label)] } := by
  rw [runStack]
  split <;> simp_all

theorem runStack_branch {condition : Condition} {thenBody elseBody : Block}
    (next : frame.rest = .branch condition thenBody elseBody :: behind) :
    runStack state (frame :: below) =
      runStack state (Stack.push (frame.advance :: below)
        (Menu.select state.game.has condition thenBody elseBody).1) := by
  rw [runStack]
  split <;> simp_all

end Machine

/-- How a run leaves the machine: nothing is left, or a menu with at least one item is pending. -/
def Run.Settled (run : Run) : Prop :=
  match run.flow with
  | .completed | .transferred _ => run.machine = .idle
  | .suspended count =>
    ∃ items, run.machine.menu = some items ∧ items.length = count ∧ items ≠ []

theorem Run.settled_before (commands : List Command) (run : Run) :
    (run.before commands).Settled ↔ run.Settled :=
  Iff.rfl

theorem Machine.runStack_settled (state : State) (stack : Stack) :
    (runStack state stack).Settled := by
  induction state, stack using runStack.induct with
  | case1 state =>
      rw [runStack_nil]
      rfl
  | case2 state frame below next ih =>
      rw [runStack_done next]
      exact ih
  | case3 state frame below action behind next changed commands performed ih =>
      rw [runStack_act next, Run.settled_before, performed]
      exact ih
  | case4 state frame below target line behind next =>
      rw [runStack_go next]
      rfl
  | case5 state frame below label body behind next items position collected =>
      rw [runStack_choice next]
      obtain ⟨others, offered⟩ := Menu.collect_choice next
      refine ⟨_, rfl, rfl, ?_⟩
      rw [offered]
      exact List.cons_ne_nil _ _
  | case6 state frame below condition thenBody elseBody behind next selected ih =>
      rw [runStack_branch next]
      exact ih

theorem Machine.run_settled {machine : Machine} (fresh : machine.menu = none) (state : State) :
    (machine.run state).Settled := by
  rw [run, fresh]
  exact runStack_settled state machine.stack

theorem Action.perform_scene (action : Action) (state : State) :
    (action.perform state).1.scene = state.scene := by
  cases action <;> rfl

theorem Action.perform_waiting (action : Action) (state : State) :
    (action.perform state).1.waiting = state.waiting := by
  cases action <;> rfl

theorem Machine.runStack_scene_waiting (state : State) (stack : Stack) :
    (runStack state stack).state.scene = state.scene ∧
      (runStack state stack).state.waiting = state.waiting := by
  induction state, stack using runStack.induct with
  | case1 state =>
      rw [runStack_nil]
      exact ⟨rfl, rfl⟩
  | case2 state frame below next ih =>
      rw [runStack_done next]
      exact ih
  | case3 state frame below action behind next changed commands performed ih =>
      have scene := action.perform_scene state
      have waiting := action.perform_waiting state
      rw [performed] at scene waiting
      rw [runStack_act next, performed]
      exact ⟨ih.1.trans scene, ih.2.trans waiting⟩
  | case4 state frame below target line behind next =>
      rw [runStack_go next]
      exact ⟨rfl, rfl⟩
  | case5 state frame below label body behind next items position collected =>
      rw [runStack_choice next]
      exact ⟨rfl, rfl⟩
  | case6 state frame below condition thenBody elseBody behind next selected ih =>
      rw [runStack_branch next]
      exact ih

theorem Machine.run_scene_waiting (machine : Machine) (state : State) :
    (machine.run state).state.scene = state.scene ∧
      (machine.run state).state.waiting = state.waiting := by
  unfold run
  split
  · exact ⟨rfl, rfl⟩
  · exact runStack_scene_waiting state machine.stack

end SceneScript
