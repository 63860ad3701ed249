import Mathlib.Computability.StateTransition
import SceneScript.Proofs.Story.Steps

/-!
# A run, turn by turn

A run is a loop without a counter. In each turn it leaves a frame that is done or executes the next
statement; an empty stack, a `go` and a choice end it. Here the loop is a step that could go on
forever, and it notes which statements it executes. Every turn lowers the weight of what is left, so
the loop ends from wherever it begins, and it ends with what the machine's run gives.
-/

namespace SceneScript

open StateTransition

set_option autoImplicit false

/-- Where a run stands, what it has executed and shown. It has a flow once it is over. -/
structure Moment where
  flow : Option Flow
  machine : Machine
  state : State
  executed : List Visit
  commands : List Command

namespace Moment

def begin (machine : Machine) (state : State) : Moment where
  flow := none
  machine := machine
  state := state
  executed := []
  commands := []

/-- Executes the statement that the innermost frame has reached. -/
def execute (moment : Moment) (frame : Frame) (below : Stack) : Statement → Moment
  | .act action =>
    { moment with
      machine := ⟨frame.advance :: below, none⟩
      state := (action.perform moment.state).1
      commands := moment.commands ++ (action.perform moment.state).2 }
  | .go target _ => { moment with flow := some (.transferred target), machine := .idle }
  | .choice _ _ =>
    let (items, position) := Menu.collect moment.state.game.has frame.body frame.position
    { moment with
      flow := some (.suspended items.length)
      machine := ⟨{ frame with position := position } :: below, some items⟩
      commands := moment.commands ++ [.presentChoices (items.map MenuItem.label)] }
  | .branch condition thenBody elseBody =>
    let selected := (Menu.select moment.state.game.has condition thenBody elseBody).1
    { moment with machine := ⟨Stack.push (frame.advance :: below) selected, none⟩ }

def note (moment : Moment) (visit : Visit) : Moment :=
  { moment with executed := moment.executed ++ [visit] }

/-- One turn; there is none once the run is over. -/
def next (moment : Moment) : Option Moment :=
  match moment.flow, moment.machine with
  | some _, _ => none
  | none, ⟨_, some items⟩ => some { moment with flow := some (.suspended items.length) }
  | none, ⟨[], none⟩ => some { moment with flow := some .completed }
  | none, ⟨frame :: below, none⟩ =>
    match frame.rest with
    | [] => some { moment with machine := ⟨below, none⟩ }
    | statement :: behind =>
      some ((moment.note ⟨statement, behind⟩).execute frame below statement)

/-- A bound for the turns that are left. -/
def weight (moment : Moment) : Nat :=
  match moment.flow with
  | some _ => 0
  | none => 1 + moment.machine.stack.weight

section Next

variable {moment later : Moment} {frame : Frame} {below : Stack} {behind : Block}

theorem next_pending {items : List MenuItem} (runs : moment.flow = none)
    (pending : moment.machine.menu = some items) :
    moment.next = some { moment with flow := some (.suspended items.length) } := by
  obtain ⟨flow, ⟨stack, menu⟩, state, executed, commands⟩ := moment
  cases runs
  cases pending
  rfl

theorem next_nil (runs : moment.flow = none) (stands : moment.machine = ⟨[], none⟩) :
    moment.next = some { moment with flow := some .completed } := by
  simp only [next, runs, stands]

theorem next_done (runs : moment.flow = none) (stands : moment.machine = ⟨frame :: below, none⟩)
    (rest : frame.rest = []) :
    moment.next = some { moment with machine := ⟨below, none⟩ } := by
  simp only [next, runs, stands, rest]

theorem next_execute {statement : Statement} (runs : moment.flow = none)
    (stands : moment.machine = ⟨frame :: below, none⟩) (rest : frame.rest = statement :: behind) :
    moment.next = some ((moment.note ⟨statement, behind⟩).execute frame below statement) := by
  simp only [next, runs, stands, rest]

theorem next_elim {motive : Moment → Moment → Prop}
    (pending : ∀ moment items, moment.flow = none → moment.machine.menu = some items →
      motive moment { moment with flow := some (.suspended items.length) })
    (completed : ∀ moment, moment.flow = none → moment.machine = ⟨[], none⟩ →
      motive moment { moment with flow := some .completed })
    (done : ∀ moment frame below, moment.flow = none → moment.machine = ⟨frame :: below, none⟩ →
      frame.rest = [] → motive moment { moment with machine := ⟨below, none⟩ })
    (execute : ∀ moment frame below statement behind, moment.flow = none →
      moment.machine = ⟨frame :: below, none⟩ → frame.rest = statement :: behind →
      motive moment ((moment.note ⟨statement, behind⟩).execute frame below statement))
    (turned : moment.next = some later) : motive moment later := by
  obtain ⟨flow, ⟨stack, menu⟩, state, executed, commands⟩ := moment
  cases flow with
  | some flow => cases turned
  | none =>
      cases menu with
      | some items =>
          cases turned
          exact pending _ items rfl rfl
      | none =>
          cases stack with
          | nil =>
              cases turned
              exact completed _ rfl rfl
          | cons frame below =>
              cases reached : frame.rest with
              | nil =>
                  rw [next_done rfl rfl reached] at turned
                  cases turned
                  exact done _ frame below rfl rfl reached
              | cons statement behind =>
                  rw [next_execute rfl rfl reached] at turned
                  cases turned
                  exact execute _ frame below statement behind rfl rfl reached

theorem weight_execute_lt {statement : Statement} (runs : moment.flow = none)
    (stands : moment.machine = ⟨frame :: below, none⟩) (rest : frame.rest = statement :: behind) :
    (moment.execute frame below statement).weight < moment.weight := by
  have before : moment.weight = 1 + Stack.weight (frame :: below) := by
    rw [weight, runs, stands]
  rw [before, Stack.weight, rest, Block.size]
  cases statement with
  | act action =>
      simp only [execute, weight, runs, Stack.weight, Frame.rest_advance rest, Statement.size]
      omega
  | go target line =>
      simp only [execute, weight]
      omega
  | choice label body =>
      simp only [execute, weight]
      omega
  | branch condition thenBody elseBody =>
      have bound := Stack.weight_push_le (frame.advance :: below)
        (Menu.select moment.state.game.has condition thenBody elseBody).1
      have part := Menu.size_select_le moment.state.game.has condition thenBody elseBody
      simp only [Stack.weight, Frame.rest_advance rest] at bound
      simp only [execute, weight, runs, Statement.size]
      omega

theorem weight_next_lt (turned : moment.next = some later) : later.weight < moment.weight := by
  refine next_elim (motive := fun moment later => later.weight < moment.weight) ?_ ?_ ?_ ?_ turned
  · intro moment items runs pending
    simp only [weight, runs]
    omega
  · intro moment runs stands
    simp only [weight, runs]
    omega
  · intro moment frame below runs stands rest
    simp only [weight, runs, stands, Stack.weight]
    omega
  · intro moment frame below statement behind runs stands rest
    have same : (moment.note ⟨statement, behind⟩).weight = moment.weight := rfl
    rw [← same]
    exact weight_execute_lt runs stands rest

end Next

def last (moment : Moment) : Moment :=
  match _turned : moment.next with
  | none => moment
  | some later => later.last
termination_by moment.weight
decreasing_by exact weight_next_lt _turned

theorem last_of_next {moment later : Moment} (turned : moment.next = some later) :
    moment.last = later.last := by
  rw [last]
  split <;> simp_all

theorem last_of_over {moment : Moment} (ended : moment.next = none) : moment.last = moment := by
  rw [last]
  split <;> simp_all

theorem reaches_last (moment : Moment) :
    Reaches next moment moment.last ∧ moment.last.next = none := by
  induction moment using last.induct with
  | case1 moment ended =>
      rw [last_of_over ended]
      exact ⟨.refl, ended⟩
  | case2 moment later turned ih =>
      rw [last_of_next turned]
      exact ⟨.head turned ih.1, ih.2⟩

theorem eval_next (moment : Moment) : eval next moment = Part.some moment.last :=
  Part.eq_some_iff.2 (mem_eval.2 moment.reaches_last)

theorem last_of_kept {motive : Moment → Prop}
    (kept : ∀ moment later, moment.next = some later → motive moment → motive later)
    {moment : Moment} (holds : motive moment) : motive moment.last := by
  induction moment using last.induct with
  | case1 moment ended =>
      rw [last_of_over ended]
      exact holds
  | case2 moment later turned ih =>
      rw [last_of_next turned]
      exact ih (kept moment later turned holds)

/-- The moment ends as a run does, with the commands of the run behind those it has shown. -/
structure EndsAs (moment : Moment) (run : Run) : Prop where
  flow : moment.last.flow = some run.flow
  machine : moment.last.machine = run.machine
  state : moment.last.state = run.state
  commands : moment.last.commands = moment.commands ++ run.commands

theorem endsAs_of_next {moment later : Moment} {run : Run} {commands : List Command}
    (turned : moment.next = some later) (shown : later.commands = moment.commands ++ commands)
    (ends : later.EndsAs run) : moment.EndsAs (run.before commands) where
  flow := by rw [last_of_next turned, ends.flow, Run.before]
  machine := by rw [last_of_next turned, ends.machine, Run.before]
  state := by rw [last_of_next turned, ends.state, Run.before]
  commands := by rw [last_of_next turned, ends.commands, shown, List.append_assoc, Run.before]

theorem endsAs_of_over {moment later : Moment} {flow : Flow} {commands : List Command}
    (turned : moment.next = some later) (ended : later.flow = some flow)
    (shown : later.commands = moment.commands ++ commands) :
    moment.EndsAs ⟨flow, later.machine, later.state, commands⟩ := by
  have stops : later.next = none := by simp only [next, ended]
  have same : moment.last = later := by rw [last_of_next turned, last_of_over stops]
  rw [← same] at ended shown ⊢
  exact ⟨ended, rfl, rfl, shown⟩

theorem endsAs_runStack (state : State) (stack : Stack) (moment : Moment)
    (runs : moment.flow = none) (here : moment.state = state)
    (stands : moment.machine = ⟨stack, none⟩) :
    moment.EndsAs (Machine.runStack state stack) := by
  induction state, stack using Machine.runStack.induct generalizing moment with
  | case1 state =>
      have ends := endsAs_of_over (next_nil runs stands) rfl (List.append_nil _).symm
      rw [here, stands] at ends
      rw [Machine.runStack_nil]
      exact ends
  | case2 state frame below rest ih =>
      rw [Machine.runStack_done rest]
      have later := ih { moment with machine := ⟨below, none⟩ } runs here rfl
      exact endsAs_of_next (next_done runs stands rest) (List.append_nil _).symm later
  | case3 state frame below action behind rest changed commands performed ih =>
      have moved : action.perform moment.state = (changed, commands) := by
        rw [here]
        exact performed
      rw [Machine.runStack_act rest, performed]
      refine endsAs_of_next (next_execute runs stands rest) ?_ (ih _ runs ?_ rfl)
      · simp only [execute, note, moved]
      · simp only [execute, note, moved]
  | case4 state frame below target line behind rest =>
      have ends := endsAs_of_over (next_execute runs stands rest) rfl (List.append_nil _).symm
      rw [Machine.runStack_go rest, ← here]
      exact ends
  | case5 state frame below label body behind rest items position collected =>
      have ends := endsAs_of_over (next_execute runs stands rest) rfl rfl
      rw [Machine.runStack_choice rest, ← here]
      exact ends
  | case6 state frame below condition thenBody elseBody behind rest selected ih =>
      rw [Machine.runStack_branch rest]
      refine endsAs_of_next (next_execute runs stands rest) (List.append_nil _).symm
        (ih _ runs here ?_)
      simp only [execute, note, here, selected]

/-- The loop ends with what the machine's run gives. -/
theorem endsAs_run (machine : Machine) (state : State) :
    (begin machine state).EndsAs (machine.run state) := by
  cases pending : machine.menu with
  | none =>
      rw [Machine.run, pending]
      apply endsAs_runStack _ _ _ rfl rfl
      rw [← pending]
      rfl
  | some items =>
      rw [Machine.run, pending]
      exact endsAs_of_over (next_pending rfl pending) rfl rfl

end Moment

/-- The statements that a run executes, in order, each with the statements behind it. -/
def Machine.executed (machine : Machine) (state : State) : List Visit :=
  (Moment.begin machine state).last.executed

/-- The end of the loop is the run, with the statements that were executed on the way. -/
theorem Moment.last_begin (machine : Machine) (state : State) :
    (begin machine state).last =
      { flow := some (machine.run state).flow
        machine := (machine.run state).machine
        state := (machine.run state).state
        executed := machine.executed state
        commands := (machine.run state).commands } := by
  have ends := endsAs_run machine state
  rw [← ends.flow, ← ends.machine, ← ends.state, ← List.nil_append (machine.run state).commands]
  exact congrArg (Moment.mk _ _ _ _) ends.commands

end SceneScript
