import SceneScript.Proofs.Story.Steps

/-!
# Blocks read recursively

Telling a block is its direct reading: an action acts, a branch tells the selected part and goes on
behind itself, a `go` leaves every block around it, and a choice presents the menu at its position,
tells the body of the selected item and goes on behind the menu. Selections come from a list that is
fixed before. A machine that is driven with the same selections tells the same story: its stack of
frames is the list of places where the recursive reading has to go on.
-/

namespace SceneScript

set_option autoImplicit false

/-- What a telling came to, with the answers that it left unused. -/
structure Telling where
  flow : Flow
  state : State
  answers : List Nat
  commands : List Command
deriving DecidableEq

/-- A telling fails at an answer that is out of range. -/
abbrev Told : Type := Except StoryError Telling

def Telling.before (commands : List Command) (telling : Telling) : Telling :=
  { telling with commands := commands ++ telling.commands }

namespace Told

def before (commands : List Command) (told : Told) : Told :=
  told.map (Telling.before commands)

/-- Goes on after a completed telling; one that was left or that waits is the end. -/
def andThen (told : Told) (next : State → List Nat → Told) : Told :=
  match told with
  | .error error => .error error
  | .ok telling =>
    match telling.flow with
    | .completed => before telling.commands (next telling.state telling.answers)
    | .transferred _ | .suspended _ => .ok telling

end Told

namespace Block

/-- Tells a block from a position on. -/
def tell (block : Block) (position : Nat) (state : State) (answers : List Nat) : Told :=
  match reached : block[position]? with
  | none => .ok ⟨.completed, state, answers, []⟩
  | some (.act action) =>
    Told.before (action.perform state).2
      (tell block (position + 1) (action.perform state).1 answers)
  | some (.go target _) => .ok ⟨.transferred target, state, answers, []⟩
  | some (.branch condition thenBody elseBody) =>
    (tell (Menu.select state.game.has condition thenBody elseBody).1 0 state answers).andThen
      fun state answers => tell block (position + 1) state answers
  | some (.choice _ _) =>
    let items := (Menu.collect state.game.has block position).1
    let behind := (Menu.collect state.game.has block position).2
    Told.before [.presentChoices (items.map MenuItem.label)]
      (match answers with
      | [] => .ok ⟨.suspended items.length, state, [], []⟩
      | answer :: others =>
        match _ : items[answer]? with
        | none => .error (.invalidChoice answer items.length)
        | some item =>
          (tell item.body 0 state others).andThen
            fun state answers => tell block behind state answers)
termination_by Block.size (block.drop position)
decreasing_by
  · rw [drop_of_reached reached]
    simp only [Block.size, Statement.size]
    omega
  · have part := Menu.size_select_le state.game.has condition thenBody elseBody
    rw [drop_of_reached reached]
    simp only [List.drop_zero, Block.size, Statement.size]
    omega
  · rw [drop_of_reached reached]
    simp only [Block.size, Statement.size]
    omega
  · rename_i selected
    have inside := Menu.size_collect_lt (List.mem_of_getElem? selected)
    simp only [List.drop_zero]
    omega
  · rename_i selected
    have inside := Menu.size_collect_lt (List.mem_of_getElem? selected)
    omega

variable {block : Block} {position : Nat} {state : State} {answers : List Nat}

theorem tell_done (reached : block[position]? = none) :
    block.tell position state answers = .ok ⟨.completed, state, answers, []⟩ := by
  rw [tell]
  split <;> simp_all

theorem tell_act {action : Action} (reached : block[position]? = some (.act action)) :
    block.tell position state answers =
      Told.before (action.perform state).2
        (block.tell (position + 1) (action.perform state).1 answers) := by
  rw [tell]
  split <;> simp_all

theorem tell_go {target : String} {line : Nat}
    (reached : block[position]? = some (.go target line)) :
    block.tell position state answers = .ok ⟨.transferred target, state, answers, []⟩ := by
  rw [tell]
  split <;> simp_all

theorem tell_branch {condition : Condition} {thenBody elseBody : Block}
    (reached : block[position]? = some (.branch condition thenBody elseBody)) :
    block.tell position state answers =
      (Block.tell (Menu.select state.game.has condition thenBody elseBody).1 0 state
        answers).andThen (block.tell (position + 1)) := by
  rw [tell]
  split <;> simp_all

theorem tell_choice_nil {label : String} {body : Block}
    (reached : block[position]? = some (.choice label body)) :
    block.tell position state [] =
      .ok ⟨.suspended (Menu.collect state.game.has block position).1.length, state, [],
        [.presentChoices ((Menu.collect state.game.has block position).1.map MenuItem.label)]⟩ := by
  rw [tell]
  split <;> simp_all [Told.before, Telling.before, Except.map]

theorem tell_choice_invalid {label : String} {body : Block} {answer : Nat} {others : List Nat}
    (reached : block[position]? = some (.choice label body))
    (missing : (Menu.collect state.game.has block position).1[answer]? = none) :
    block.tell position state (answer :: others) =
      .error (.invalidChoice answer (Menu.collect state.game.has block position).1.length) := by
  rw [tell]
  split
  case h_5 =>
    dsimp only
    split
    · rfl
    · rename_i item selected
      rw [missing] at selected
      cases selected
  all_goals simp_all

theorem tell_choice_select {label : String} {body : Block} {answer : Nat} {others : List Nat}
    {item : MenuItem} (reached : block[position]? = some (.choice label body))
    (selected : (Menu.collect state.game.has block position).1[answer]? = some item) :
    block.tell position state (answer :: others) =
      Told.before
        [.presentChoices ((Menu.collect state.game.has block position).1.map MenuItem.label)]
        ((Block.tell item.body 0 state others).andThen
          (block.tell (Menu.collect state.game.has block position).2)) := by
  rw [tell]
  split
  case h_5 =>
    dsimp only
    split
    · rename_i missing
      rw [selected] at missing
      cases missing
    · rename_i other found
      have same : item = other := Option.some.inj (selected.symm.trans found)
      rw [same]
  all_goals simp_all

end Block

/-- Tells the blocks of a stack one after the other, the innermost one first. -/
def Stack.tell : Stack → State → List Nat → Told
  | [], state, answers => .ok ⟨.completed, state, answers, []⟩
  | frame :: below, state, answers =>
    (Block.tell frame.body frame.position state answers).andThen (Stack.tell below)

namespace Told

theorem before_nil (told : Told) : told.before [] = told := by
  cases told <;> rfl

theorem before_eq_error {shown : List Command} {told : Told} {error : StoryError} :
    told.before shown = .error error ↔ told = .error error := by
  cases told <;> simp [before, Except.map]

theorem before_before (first second : List Command) (told : Told) :
    before first (before second told) = before (first ++ second) told := by
  cases told with
  | error error => rfl
  | ok telling => simp [before, Telling.before, Except.map]

theorem before_andThen (shown : List Command) (told : Told) (next : State → List Nat → Told) :
    (told.before shown).andThen next = (told.andThen next).before shown := by
  cases told with
  | error error => rfl
  | ok telling =>
      obtain ⟨flow, state, answers, commands⟩ := telling
      cases flow with
      | completed => exact (before_before shown commands (next state answers)).symm
      | transferred target => rfl
      | suspended count => rfl

theorem completed_andThen (state : State) (answers : List Nat) (next : State → List Nat → Told) :
    andThen (.ok ⟨.completed, state, answers, []⟩) next = next state answers :=
  before_nil _

theorem andThen_completed (told : Told) : told.andThen (Stack.tell []) = told := by
  cases told with
  | error error => rfl
  | ok telling =>
      obtain ⟨flow, state, answers, commands⟩ := telling
      cases flow with
      | completed => simp [andThen, Stack.tell, before, Telling.before, Except.map]
      | transferred target => rfl
      | suspended count => rfl

theorem andThen_assoc (told : Told) (next last : State → List Nat → Told) :
    (told.andThen next).andThen last =
      told.andThen fun state answers => (next state answers).andThen last := by
  cases told with
  | error error => rfl
  | ok telling =>
      obtain ⟨flow, state, answers, commands⟩ := telling
      cases flow with
      | completed => exact before_andThen commands (next state answers) last
      | transferred target => rfl
      | suspended count => rfl

end Told

theorem Stack.tell_push (stack : Stack) (body : Block) (state : State) (answers : List Nat) :
    Stack.tell (stack.push body) state answers =
      (Block.tell body 0 state answers).andThen (Stack.tell stack) := by
  cases body with
  | nil =>
      rw [Block.tell_done rfl, Told.completed_andThen]
      rfl
  | cons statement rest => rfl

namespace Machine

/-- Runs the machine and answers its menus in order, until it ends or no answer is left. -/
def follow (machine : Machine) (state : State) : List Nat → Told
  | [] =>
    let run := machine.run state
    .ok ⟨run.flow, run.state, [], run.commands⟩
  | answer :: others =>
    let run := machine.run state
    match run.flow with
    | .completed | .transferred _ => .ok ⟨run.flow, run.state, answer :: others, run.commands⟩
    | .suspended _ =>
      match run.machine.select answer with
      | .error error => .error error
      | .ok selected => Told.before run.commands (selected.follow run.state others)

theorem follow_of_runStack_before {stack later : Stack} {state changed : State}
    {shown : List Command}
    (same : runStack state stack = (runStack changed later).before shown) (answers : List Nat) :
    (Machine.mk stack none).follow state answers =
      Told.before shown ((Machine.mk later none).follow changed answers) := by
  cases answers with
  | nil =>
      simp only [follow, run, same]
      rfl
  | cons answer others =>
      simp only [follow, run, same, Run.before]
      split
      · rfl
      · rfl
      · cases (runStack changed later).machine.select answer with
        | error error => rfl
        | ok selected => exact (Told.before_before _ _ _).symm

theorem follow_of_runStack_eq {stack later : Stack} {state changed : State}
    (same : runStack state stack = runStack changed later) (answers : List Nat) :
    (Machine.mk stack none).follow state answers =
      (Machine.mk later none).follow changed answers := by
  rw [← Told.before_nil ((Machine.mk later none).follow changed answers)]
  exact follow_of_runStack_before same answers

theorem follow_of_runStack_ended {stack : Stack} {state : State} {ended : Run}
    (same : runStack state stack = ended) (final : ∀ count, ended.flow ≠ .suspended count)
    (answers : List Nat) :
    (Machine.mk stack none).follow state answers =
      .ok ⟨ended.flow, ended.state, answers, ended.commands⟩ := by
  cases answers with
  | nil => simp only [follow, run, same]
  | cons answer others =>
      simp only [follow, run, same]
      split
      · rfl
      · rfl
      · rename_i count waits
        exact absurd waits (final count)

-- The choice is the only step that uses an answer, so `fewer` is all that the selection needs.
theorem follow_stack_step (answers : List Nat)
    (fewer : ∀ answer others, answers = answer :: others → ∀ (state : State) (stack : Stack),
      (Machine.mk stack none).follow state others = Stack.tell stack state others)
    (state : State) (stack : Stack) :
    (Machine.mk stack none).follow state answers = Stack.tell stack state answers := by
  induction state, stack using runStack.induct with
  | case1 state => exact follow_of_runStack_ended runStack_nil (by simp) answers
  | case2 state frame below next ih =>
      rw [follow_of_runStack_eq (runStack_done next), ih]
      rw [Stack.tell, Block.tell_done (Frame.reached_end next), Told.completed_andThen]
  | case3 state frame below action behind next changed commands performed ih =>
      have stepped : runStack state (frame :: below) =
          (runStack changed (frame.advance :: below)).before commands := by
        rw [runStack_act next, performed]
      rw [follow_of_runStack_before stepped, ih, Stack.tell, Stack.tell,
        Block.tell_act (Frame.reached next), performed, Told.before_andThen]
      rfl
  | case4 state frame below target line behind next =>
      rw [follow_of_runStack_ended (runStack_go next) (by simp), Stack.tell,
        Block.tell_go (Frame.reached next)]
      rfl
  | case5 state frame below label body behind next items position collected =>
      have reached := Frame.reached next
      cases answers with
      | nil =>
          simp only [follow, run, runStack_choice next, Stack.tell, Block.tell_choice_nil reached]
          rfl
      | cons answer others =>
          simp only [follow, run, runStack_choice next, select]
          cases found : (Menu.collect state.game.has frame.body frame.position).1[answer]? with
          | none =>
              rw [Stack.tell, Block.tell_choice_invalid reached found]
              rfl
          | some item =>
              simp only
              rw [fewer answer others rfl, Stack.tell_push, Stack.tell,
                Block.tell_choice_select reached found, Told.before_andThen, Told.andThen_assoc]
              rfl
  | case6 state frame below condition thenBody elseBody behind next selected ih =>
      rw [follow_of_runStack_eq (runStack_branch next), ih, Stack.tell_push, Stack.tell,
        Block.tell_branch (Frame.reached next), Told.andThen_assoc]
      rfl

theorem follow_stack (stack : Stack) (state : State) (answers : List Nat) :
    (Machine.mk stack none).follow state answers = Stack.tell stack state answers := by
  induction answers generalizing stack state with
  | nil => exact follow_stack_step [] (by simp) state stack
  | cons answer others ih =>
      apply follow_stack_step
      intro first rest same changed later
      rw [← (List.cons.inj same).2]
      exact ih later changed

theorem follow_error {machine : Machine} {state : State} {answers : List Nat} {error : StoryError}
    (fresh : machine.menu = none) (failed : machine.follow state answers = .error error) :
    ∃ index ∈ answers, ∃ count ≤ index, error = .invalidChoice index count := by
  induction answers generalizing machine state with
  | nil => simp [follow] at failed
  | cons answer others ih =>
      have settled := run_settled fresh state
      simp only [follow] at failed
      split at failed
      · cases failed
      · cases failed
      · rename_i count waits
        rw [Run.Settled, waits] at settled
        obtain ⟨items, pending, -, -⟩ := settled
        simp only [select, pending] at failed
        cases found : items[answer]? with
        | none =>
            simp only [found, Except.error.injEq] at failed
            exact ⟨answer, List.mem_cons_self, items.length, List.getElem?_eq_none_iff.1 found,
              failed.symm⟩
        | some item =>
            simp only [found, Told.before_eq_error] at failed
            obtain ⟨index, member, bound⟩ := ih rfl failed
            exact ⟨index, List.mem_cons_of_mem _ member, bound⟩

/--
A machine that enters a block and is driven by a list of answers shows the commands, reaches the
state and ends with the flow of the recursive reading, and leaves the same answers unused. Both fail
only at an answer that its menu does not have, and then with the same error.
-/
theorem follow_enter_eq_tell (block : Block) (state : State) (answers : List Nat) :
    (Machine.enter block).follow state answers = block.tell 0 state answers ∧
      ∀ error, block.tell 0 state answers = .error error →
        ∃ index ∈ answers, ∃ count ≤ index, error = .invalidChoice index count := by
  have same : (Machine.enter block).follow state answers = block.tell 0 state answers := by
    rw [enter, follow_stack, Stack.tell_push]
    exact Told.andThen_completed _
  refine ⟨same, ?_⟩
  intro error failed
  rw [← same] at failed
  exact follow_error rfl failed

end Machine

end SceneScript
