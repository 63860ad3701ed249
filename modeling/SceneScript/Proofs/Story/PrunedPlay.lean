import SceneScript.Proofs.Analysis.Pruning
import SceneScript.Proofs.Story.Itinerary

/-!
# Pruned programs play alike

A machine looks only at what is left of the blocks on its stack. Two machines are therefore in step
if what is left on one is what is left on the other, pruned, and the items of their menus correspond
likewise. Every run, every entered scene and every request keeps them in step, and shows and answers
the same on both sides.
-/

namespace SceneScript

set_option autoImplicit false

def Stack.rests (stack : Stack) : List Block :=
  stack.map Frame.rest

structure Machine.Prunes (machine pruned : Machine) : Prop where
  stack : Stack.rests pruned.stack = (Stack.rests machine.stack).map Block.prune
  menu : pruned.menu = machine.menu.map (List.map MenuItem.prune)

structure Run.Prunes (run pruned : Run) : Prop where
  flow : pruned.flow = run.flow
  machine : run.machine.Prunes pruned.machine
  state : pruned.state = run.state
  commands : pruned.commands = run.commands

namespace Stack

theorem rests_cons {frame : Frame} {below pruned : Stack}
    (same : rests pruned = (rests (frame :: below)).map Block.prune) :
    ∃ first others, pruned = first :: others ∧ first.rest = Block.prune frame.rest ∧
      rests others = (rests below).map Block.prune :=
  List.map_eq_cons_iff.1 same

theorem rests_advance {frame first : Frame} {below others : Stack} {statement other : Statement}
    {behind : Block} (next : frame.rest = statement :: behind)
    (here : first.rest = other :: Block.prune behind)
    (further : rests others = (rests below).map Block.prune) :
    rests (first.advance :: others) = (rests (frame.advance :: below)).map Block.prune := by
  simpa [rests, Frame.rest_advance next, Frame.rest_advance here] using further

theorem rests_push {stack pruned : Stack} (same : rests pruned = (rests stack).map Block.prune)
    (body : Block) :
    rests (pruned.push (Block.prune body)) = (rests (stack.push body)).map Block.prune := by
  unfold push
  rw [Block.isEmpty_prune]
  split
  · exact same
  · simpa [rests, Frame.rest] using same

end Stack

namespace Machine

theorem collect_prunes (owned : String → Bool) {frame pruned : Frame}
    (here : pruned.rest = Block.prune frame.rest) :
    (Menu.collect owned pruned.body pruned.position).1 =
        (Menu.collect owned frame.body frame.position).1.map MenuItem.prune ∧
      { pruned with position := (Menu.collect owned pruned.body pruned.position).2 }.rest =
        Block.prune
          { frame with position := (Menu.collect owned frame.body frame.position).2 }.rest := by
  have items := Menu.takeItems_prune owned frame.rest
  have behind := Menu.drop_takeItems_prune owned frame.rest
  rw [← here] at items behind
  constructor
  · exact congrArg Prod.fst items
  · simp only [Menu.collect, Frame.rest, ← List.drop_drop]
    simp only [Frame.rest] at items behind
    rw [items, behind]

theorem prunes_idle : idle.Prunes idle :=
  ⟨rfl, rfl⟩

theorem runStack_prunes (state : State) (stack : Stack) :
    ∀ pruned : Stack, Stack.rests pruned = (Stack.rests stack).map Block.prune →
      (runStack state stack).Prunes (runStack state pruned) := by
  induction state, stack using runStack.induct with
  | case1 state =>
      intro pruned same
      obtain rfl := List.map_eq_nil_iff.1 same
      rw [runStack_nil]
      exact ⟨rfl, prunes_idle, rfl, rfl⟩
  | case2 state frame below next ih =>
      intro pruned same
      obtain ⟨first, others, rfl, here, further⟩ := Stack.rests_cons same
      rw [next] at here
      rw [runStack_done next, runStack_done here]
      exact ih others further
  | case3 state frame below action behind next changed commands performed ih =>
      intro pruned same
      obtain ⟨first, others, rfl, here, further⟩ := Stack.rests_cons same
      rw [next, Block.prune_cons rfl] at here
      rw [runStack_act next, runStack_act here, performed]
      obtain ⟨flow, machine, state, shown⟩ := ih _ (Stack.rests_advance next here further)
      exact ⟨flow, machine, state, congrArg (commands ++ ·) shown⟩
  | case4 state frame below target line behind next =>
      intro pruned same
      obtain ⟨first, others, rfl, here, further⟩ := Stack.rests_cons same
      rw [next, Block.prune_go rfl] at here
      rw [runStack_go next, runStack_go here]
      exact ⟨rfl, prunes_idle, rfl, rfl⟩
  | case5 state frame below label body behind next items position collected =>
      intro pruned same
      obtain ⟨first, others, rfl, here, further⟩ := Stack.rests_cons same
      have offered : first.rest = .choice label (Block.prune body) :: Block.prune behind := by
        rw [here, next, Block.prune_cons rfl]
        rfl
      obtain ⟨listed, moved⟩ := collect_prunes state.game.has here
      rw [runStack_choice next, runStack_choice offered, listed]
      refine ⟨?_, ⟨?_, rfl⟩, rfl, ?_⟩
      · simp
      · exact List.cons_eq_cons.2 ⟨moved, further⟩
      · simp [Function.comp_def, MenuItem.prune]
  | case6 state frame below condition thenBody elseBody behind next selected ih =>
      intro pruned same
      obtain ⟨first, others, rfl, here, further⟩ := Stack.rests_cons same
      rw [next, Block.prune_cons rfl] at here
      rw [runStack_branch next, runStack_branch here, Menu.select_prune]
      exact ih _ (Stack.rests_push (Stack.rests_advance next here further) _)

theorem run_prunes {machine pruned : Machine} (same : machine.Prunes pruned) (state : State) :
    (machine.run state).Prunes (pruned.run state) := by
  have pending := same.menu
  cases waits : machine.menu with
  | none =>
      rw [waits] at pending
      simp only [run, waits, pending, Option.map_none]
      exact runStack_prunes state machine.stack pruned.stack same.stack
  | some items =>
      rw [waits] at pending
      simp only [run, waits, pending, Option.map_some]
      exact ⟨by simp, same, rfl, rfl⟩

theorem enter_prunes (body : Block) : (enter body).Prunes (enter (Block.prune body)) :=
  ⟨Stack.rests_push rfl body, rfl⟩

theorem isIdle_prunes {machine pruned : Machine} (same : machine.Prunes pruned) :
    pruned.isIdle = machine.isIdle := by
  have emptied : pruned.stack.isEmpty = machine.stack.isEmpty := by
    have sizes := congrArg List.isEmpty same.stack
    simpa [Stack.rests] using sizes
  rw [isIdle, isIdle, emptied, same.menu, Option.isNone_map]

end Machine

namespace Session

structure Prunes (session pruned : Session) : Prop where
  program : pruned.program = session.program.prune
  state : pruned.state = session.state
  machine : session.machine.Prunes pruned.machine
  started : pruned.started = session.started

/-- Two results that say the same, with sessions that are in step. -/
structure InStep {α : Type} (result pruned : α × Session) : Prop where
  answer : pruned.1 = result.1
  session : result.2.Prunes pruned.2

theorem prunes_new (program : Program) : (new program).Prunes (new program.prune) :=
  ⟨rfl, rfl, Machine.prunes_idle, rfl⟩

section

variable {session pruned : Session}

theorem run_prunes (same : session.Prunes pruned) :
    session.run.1.Prunes pruned.run.1 ∧ pruned.run.2 = session.run.2 := by
  obtain ⟨flow, machine, state, commands⟩ := Machine.run_prunes same.machine session.state
  have stated : pruned.machine.run pruned.state = pruned.machine.run session.state := by
    rw [same.state]
  refine ⟨⟨same.program, ?_, ?_, same.started⟩, ?_⟩
  · simpa only [run, stated] using state
  · simpa only [run, stated] using machine
  · simp only [run, stated, flow, commands]

theorem enterScene_prunes (same : session.Prunes pruned) (id : String) :
    (session.enterScene id).1.Prunes (pruned.enterScene id).1 ∧
      (pruned.enterScene id).2 = (session.enterScene id).2 := by
  obtain ⟨program, state, machine, started⟩ := same
  unfold enterScene
  rw [program, state, Program.scene?_prune]
  cases session.program.scene? id with
  | none => exact ⟨⟨rfl, rfl, Machine.prunes_idle, started⟩, rfl⟩
  | some scene => exact ⟨⟨rfl, rfl, Machine.enter_prunes scene.body, started⟩, rfl⟩

theorem inStep_before (commands : List Command)
    {result other : Except StoryError (List Command) × Session} (same : InStep result other) :
    InStep (before commands result) (before commands other) :=
  ⟨congrArg (Except.map (commands ++ ·)) same.answer, same.session⟩

theorem inStep_batch {result other : Except StoryError (List Command) × Session}
    (same : InStep result other) : InStep (batch result) (batch other) := by
  refine ⟨?_, same.session⟩
  simp only [batch, same.answer, same.session.state]

-- The recursion is on the allowance: only a followed `go` goes on with one fewer.
theorem drive_prunes {session pruned : Session} (same : session.Prunes pruned) (allowance : Nat) :
    InStep (session.drive allowance) (pruned.drive allowance) := by
  obtain ⟨next, shown⟩ := run_prunes same
  have flows : pruned.run.2.1 = session.run.2.1 := congrArg Prod.fst shown
  have commands : pruned.run.2.2 = session.run.2.2 := congrArg Prod.snd shown
  cases ended : session.run.2.1 with
  | completed =>
      rw [drive_completed ended, drive_completed (flows.trans ended), commands]
      exact ⟨rfl, next⟩
  | suspended count =>
      rw [drive_suspended ended, drive_suspended (flows.trans ended), commands]
      exact ⟨rfl, next.program, congrArg (State.wait · (.choice count)) next.state, next.machine,
        next.started⟩
  | transferred target =>
      cases allowance with
      | zero =>
          rw [drive_limit ended, drive_limit (flows.trans ended)]
          exact ⟨rfl, next⟩
      | succ fewer =>
          obtain ⟨entered, opened⟩ := enterScene_prunes next target
          rw [drive_transfer ended, drive_transfer (flows.trans ended), commands, opened]
          exact inStep_before _ (drive_prunes entered fewer)
termination_by allowance

theorem opened_prunes (same : session.Prunes pruned) (id : String) :
    (session.opened id).Prunes (pruned.opened id) ∧ pruned.opening id = session.opening id := by
  have begun : Prunes { session with started := true, state := session.state.clearWait }
      { pruned with started := true, state := pruned.state.clearWait } :=
    ⟨same.program, congrArg State.clearWait same.state, same.machine, rfl⟩
  obtain ⟨entered, shown⟩ := enterScene_prunes begun id
  refine ⟨entered, ?_⟩
  rw [opening, opening, shown, same.state]

theorem start_prunes (same : session.Prunes pruned) (id : String) :
    InStep (session.start id) (pruned.start id) := by
  obtain ⟨opened, shown⟩ := opened_prunes same id
  rw [start_opening, start_opening, shown]
  exact inStep_batch (inStep_before _ (drive_prunes opened transferLimit))

theorem resumed_prunes (same : session.Prunes pruned) (item : MenuItem) :
    (session.resumed item).Prunes (pruned.resumed item.prune) :=
  ⟨same.program, congrArg State.clearWait same.state,
    ⟨Stack.rests_push same.machine.stack item.body, rfl⟩, same.started⟩

theorem respond_prunes (coherent : session.Coherent) (other : pruned.Coherent)
    (same : session.Prunes pruned) (request : Request) :
    InStep (session.respond request) (pruned.respond request) := by
  apply respond_elim coherent (motive := fun request _ result =>
    InStep result (pruned.respond request))
  · intro id
    exact start_prunes same id
  · intro items index item begun waits pending found
    have menu : pruned.machine.menu = some (items.map MenuItem.prune) := by
      rw [same.machine.menu, pending]
      rfl
    have waiting : pruned.state.waiting = .choice (items.map MenuItem.prune).length := by
      rw [same.state, waits, List.length_map]
    have chosen : (items.map MenuItem.prune)[index]? = some item.prune := by
      rw [List.getElem?_map, found]
      rfl
    rw [respond, tick_select (same.started.trans begun) waiting menu chosen]
    exact inStep_batch (drive_prunes (resumed_prunes same item) transferLimit)
  · intro request refused
    have alike : pruned.takes request = false := by
      rw [← refused]
      unfold takes
      rw [same.state, same.started]
    rw [respond_of_not_takes other alike]
    refine ⟨?_, same⟩
    simp only [refusal, same.state, same.started]

theorem isFinished_prunes (same : session.Prunes pruned) :
    pruned.isFinished = session.isFinished := by
  rw [isFinished, isFinished, same.started, same.state, Machine.isIdle_prunes same.machine]

end

/-- What is seen of a call: its answer, the state behind it and whether the session is finished. -/
def observe (outcome : Except StoryError Batch × Session) :
    Except StoryError Batch × State × Bool :=
  (outcome.1, outcome.2.state, outcome.2.isFinished)

theorem observe_prunes {result pruned : Except StoryError Batch × Session}
    (same : InStep result pruned) : observe pruned = observe result := by
  rw [observe, observe, same.answer, same.session.state, isFinished_prunes same.session]

theorem outcomes_prunes {session pruned : Session} {begun : Bool}
    (reached : Reached session begun) (other : Reached pruned begun)
    (same : session.Prunes pruned) (requests : List Request) :
    (pruned.outcomes requests).map observe = (session.outcomes requests).map observe := by
  induction requests generalizing session pruned begun with
  | nil => rfl
  | cons request rest ih =>
      have alike := respond_prunes reached.coherent other.coherent same request
      have later := ih (reached_respond reached request) (reached_respond other request)
        alike.session
      rw [outcomes, outcomes, List.map_cons, List.map_cons, observe_prunes alike, later]

/--
Whatever is requested of a program and of the pruned program, every call gives the same answer,
leaves the same state and is finished alike. The check warns about nothing in the pruned program,
in which every id is looked up as in the program.
-/
theorem outcomes_prune (program : Program) (requests : List Request) :
    ((new program.prune).outcomes requests).map observe =
      ((new program).outcomes requests).map observe ∧
    (∀ entry, ∀ diagnostic ∈ program.prune.check entry, diagnostic.level ≠ .warn) ∧
    ∀ id, program.prune.scene? id = (program.scene? id).map Scene.prune := by
  refine ⟨?_, program.check_prune, program.scene?_prune⟩
  exact outcomes_prunes (reached_new program) (reached_new program.prune) (prunes_new program)
    requests

end Session

end SceneScript
