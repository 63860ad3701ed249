import Mathlib.Computability.StateTransition
import SceneScript.Proofs.Story.Restart

/-!
# The limit of transfers is exact

A walk executes a story one statement at a time and follows every `go`, however many there are, so it
may never end. A call of a session agrees with it up to the last `go` that it may follow: if the walk
ends before, the call gives what the walk has come to, and otherwise it fails at the first `go` too
many and leaves what the walk had changed by then.
-/

namespace SceneScript

open StateTransition

set_option autoImplicit false

namespace Session

theorem waiting_of_idle (session : Session) (coherent : session.Coherent)
    (idle : session.machine = .idle) : session.state.waiting = .nothing := by
  cases waits : session.state.waiting with
  | nothing => rfl
  | choice count =>
      simp only [Coherent, waits, idle] at coherent
      obtain ⟨items, pending, -⟩ := coherent
      cases pending

theorem before_nil (result : Except StoryError (List Command) × Session) :
    before [] result = result := by
  obtain ⟨outcome, session⟩ := result
  cases outcome <;> rfl

end Session

/-- Where a walk stands, what it has shown, and the targets of the `go`s that it has executed. -/
structure Walk where
  session : Session
  shown : List Command
  gone : List String

namespace Walk

def withStack (walk : Walk) (stack : Stack) : Walk :=
  { walk with session := { walk.session with machine := ⟨stack, none⟩ } }

def perform (walk : Walk) (action : Action) : Walk :=
  { walk with
    session := { walk.session with state := (action.perform walk.session.state).1 }
    shown := walk.shown ++ (action.perform walk.session.state).2 }

/-- Presents a menu and waits for a choice. -/
def present (walk : Walk) (items : List MenuItem) (stack : Stack) : Walk :=
  { walk with
    session :=
      { walk.session with
        machine := ⟨stack, some items⟩
        state := walk.session.state.wait (.choice items.length) }
    shown := walk.shown ++ [.presentChoices (items.map MenuItem.label)] }

def transfer (walk : Walk) (target : String) : Walk where
  session := (walk.session.enterScene target).1
  shown := walk.shown ++ (walk.session.enterScene target).2
  gone := walk.gone ++ [target]

/-- Executes one statement or leaves a block that is done; there is no step at a menu or at the end. -/
def step (walk : Walk) : Option Walk :=
  match walk.session.machine with
  | ⟨_, some _⟩ | ⟨[], none⟩ => none
  | ⟨frame :: below, none⟩ =>
    match frame.rest with
    | [] => some (walk.withStack below)
    | .act action :: _ => some ((walk.perform action).withStack (frame.advance :: below))
    | .go target _ :: _ => some (walk.transfer target)
    | .choice _ _ :: _ =>
      let (items, position) := Menu.collect walk.session.state.game.has frame.body frame.position
      some (walk.present items ({ frame with position := position } :: below))
    | .branch condition thenBody elseBody :: _ =>
      let selected := if condition.eval walk.session.state.game.has then thenBody else elseBody
      some (walk.withStack (Stack.push (frame.advance :: below) selected))

section Step

variable {walk next : Walk} {frame : Frame} {below : Stack} {behind : Block}

theorem step_nil (stands : walk.session.machine = ⟨[], none⟩) : walk.step = none := by
  simp only [step, stands]

theorem step_menu {items : List MenuItem} (pending : walk.session.machine.menu = some items) :
    walk.step = none := by
  obtain ⟨⟨program, state, ⟨stack, menu⟩, started⟩, shown, gone⟩ := walk
  cases pending
  rfl

theorem step_done (stands : walk.session.machine = ⟨frame :: below, none⟩)
    (rest : frame.rest = []) : walk.step = some (walk.withStack below) := by
  simp only [step, stands, rest]

theorem step_act {action : Action} (stands : walk.session.machine = ⟨frame :: below, none⟩)
    (rest : frame.rest = .act action :: behind) :
    walk.step = some ((walk.perform action).withStack (frame.advance :: below)) := by
  simp only [step, stands, rest]

theorem step_go {target : String} {line : Nat}
    (stands : walk.session.machine = ⟨frame :: below, none⟩)
    (rest : frame.rest = .go target line :: behind) : walk.step = some (walk.transfer target) := by
  simp only [step, stands, rest]

theorem step_choice {label : String} {body : Block}
    (stands : walk.session.machine = ⟨frame :: below, none⟩)
    (rest : frame.rest = .choice label body :: behind) :
    walk.step = some (walk.present
      (Menu.collect walk.session.state.game.has frame.body frame.position).1
      ({ frame with
          position := (Menu.collect walk.session.state.game.has frame.body frame.position).2 } ::
        below)) := by
  simp only [step, stands, rest]

theorem step_branch {condition : Condition} {thenBody elseBody : Block}
    (stands : walk.session.machine = ⟨frame :: below, none⟩)
    (rest : frame.rest = .branch condition thenBody elseBody :: behind) :
    walk.step = some (walk.withStack (Stack.push (frame.advance :: below)
      (Menu.select walk.session.state.game.has condition thenBody elseBody).1)) := by
  simp only [step, stands, rest, Menu.select]
  split <;> rfl

theorem step_elim {motive : Walk → Walk → Prop}
    (done : ∀ walk frame below, walk.session.machine = ⟨frame :: below, none⟩ →
      frame.rest = [] → motive walk (walk.withStack below))
    (act : ∀ walk frame below action behind, walk.session.machine = ⟨frame :: below, none⟩ →
      frame.rest = .act action :: behind →
      motive walk ((walk.perform action).withStack (frame.advance :: below)))
    (go : ∀ walk target, motive walk (walk.transfer target))
    (choice : ∀ walk frame below, walk.session.machine = ⟨frame :: below, none⟩ →
      motive walk (walk.present
        (Menu.collect walk.session.state.game.has frame.body frame.position).1
        ({ frame with
            position := (Menu.collect walk.session.state.game.has frame.body frame.position).2 } ::
          below)))
    (branch : ∀ walk frame below condition thenBody elseBody behind,
      walk.session.machine = ⟨frame :: below, none⟩ →
      frame.rest = .branch condition thenBody elseBody :: behind →
      motive walk (walk.withStack (Stack.push (frame.advance :: below)
        (Menu.select walk.session.state.game.has condition thenBody elseBody).1)))
    (stepped : walk.step = some next) : motive walk next := by
  cases stands : walk.session.machine with
  | mk stack menu =>
      cases menu with
      | some items =>
          rw [step_menu (congrArg Machine.menu stands)] at stepped
          cases stepped
      | none =>
          cases stack with
          | nil =>
              rw [step_nil stands] at stepped
              cases stepped
          | cons frame below =>
              cases rest : frame.rest with
              | nil =>
                  rw [step_done stands rest] at stepped
                  cases stepped
                  exact done walk frame below stands rest
              | cons statement behind =>
                  cases statement with
                  | act action =>
                      rw [step_act stands rest] at stepped
                      cases stepped
                      exact act walk frame below action behind stands rest
                  | go target line =>
                      rw [step_go stands rest] at stepped
                      cases stepped
                      exact go walk target
                  | choice label body =>
                      rw [step_choice stands rest] at stepped
                      cases stepped
                      exact choice walk frame below stands
                  | branch condition thenBody elseBody =>
                      rw [step_branch stands rest] at stepped
                      cases stepped
                      exact branch walk frame below condition thenBody elseBody behind stands rest

theorem step_gone (stepped : walk.step = some next) :
    next.gone = walk.gone ∧ next.session.state.scene = walk.session.state.scene ∨
      ∃ target, next.gone = walk.gone ++ [target] ∧ next.session.state.scene = some target := by
  refine step_elim (motive := fun walk next =>
    next.gone = walk.gone ∧ next.session.state.scene = walk.session.state.scene ∨
      ∃ target, next.gone = walk.gone ++ [target] ∧ next.session.state.scene = some target)
    ?_ ?_ ?_ ?_ ?_ stepped
  · intro walk frame below stands rest
    exact .inl ⟨rfl, rfl⟩
  · intro walk frame below action behind stands rest
    exact .inl ⟨rfl, action.perform_scene walk.session.state⟩
  · intro walk target
    refine .inr ⟨target, rfl, ?_⟩
    rw [transfer, (walk.session.enterScene_fresh target).2.1]
  · intro walk frame below stands
    exact .inl ⟨rfl, rfl⟩
  · intro walk frame below condition thenBody elseBody behind stands rest
    exact .inl ⟨rfl, rfl⟩

end Step

/-- The `go`s of a walk are never forgotten, and its scene is the target of the last one. -/
theorem gone_of_reaches {walk stage : Walk} (reaches : Reaches step walk stage) :
    ∃ targets, stage.gone = walk.gone ++ targets ∧
      stage.session.state.scene = targets.getLast?.or walk.session.state.scene := by
  induction reaches with
  | refl => exact ⟨[], (List.append_nil _).symm, rfl⟩
  | tail before stepped ih =>
      obtain ⟨targets, gone, scene⟩ := ih
      obtain ⟨same, stays⟩ | ⟨target, more, enters⟩ := step_gone stepped
      · exact ⟨targets, same.trans gone, stays.trans scene⟩
      · refine ⟨targets ++ [target], ?_, ?_⟩
        · rw [more, gone, List.append_assoc]
        · rw [enters, List.getLast?_concat]
          rfl

def behind (walk : Walk) (commands : List Command) (state : State) (machine : Machine) : Walk where
  session := { walk.session with state := state, machine := machine }
  shown := walk.shown ++ commands
  gone := walk.gone

/-- A walk that takes the statements of a run: it stops with the run, or at the `go` that ends it. -/
def Lands (walk : Walk) (run : Run) (stage : Walk) : Prop :=
  match run.flow with
  | .completed => stage = walk.behind run.commands run.state run.machine ∧ stage.step = none
  | .suspended count =>
    stage = walk.behind run.commands (run.state.wait (.choice count)) run.machine ∧
      stage.step = none
  | .transferred target =>
    (∃ machine, stage = walk.behind run.commands run.state machine) ∧
      stage.step = some (stage.transfer target)

theorem lands_of_behind {walk next stage : Walk} {commands : List Command} {run : Run}
    (same : ∀ later state machine,
      next.behind later state machine = walk.behind (commands ++ later) state machine)
    (lands : next.Lands run stage) : walk.Lands (run.before commands) stage := by
  simp only [Lands, same] at lands
  exact lands

theorem exists_lands_of_step {walk next : Walk} {run : Run} (commands : List Command)
    (stepped : walk.step = some next)
    (same : ∀ later state machine,
      next.behind later state machine = walk.behind (commands ++ later) state machine)
    (lands : ∃ stage, Reaches step next stage ∧ next.Lands run stage) :
    ∃ stage, Reaches step walk stage ∧ walk.Lands (run.before commands) stage := by
  obtain ⟨stage, reaches, arrives⟩ := lands
  exact ⟨stage, .head stepped reaches, lands_of_behind same arrives⟩

theorem exists_lands_runStack (state : State) (stack : Stack) (walk : Walk)
    (here : walk.session.state = state) (stands : walk.session.machine = ⟨stack, none⟩) :
    ∃ stage, Reaches step walk stage ∧ walk.Lands (Machine.runStack state stack) stage := by
  induction state, stack using Machine.runStack.induct generalizing walk with
  | case1 state =>
      rw [Machine.runStack_nil]
      refine ⟨walk, .refl, ?_, step_nil stands⟩
      rw [behind, List.append_nil, ← here, ← show walk.session.machine = .idle from stands]
  | case2 state frame below rest ih =>
      rw [Machine.runStack_done rest]
      refine exists_lands_of_step [] (step_done stands rest) ?_ ?_
      · intro later state machine
        rfl
      · exact ih (walk.withStack below) here rfl
  | case3 state frame below action rest reached changed commands performed ih =>
      rw [Machine.runStack_act reached, performed]
      have moved : action.perform walk.session.state = (changed, commands) := by
        rw [here]
        exact performed
      refine exists_lands_of_step commands (step_act stands reached) ?_ ?_
      · intro later state machine
        simp only [behind, withStack, perform, moved, List.append_assoc]
      · exact ih _ (congrArg Prod.fst moved) rfl
  | case4 state frame below target line rest reached =>
      rw [Machine.runStack_go reached]
      refine ⟨walk, .refl, ⟨walk.session.machine, ?_⟩, step_go stands reached⟩
      rw [behind, List.append_nil, ← here]
  | case5 state frame below label body rest reached items position collected =>
      subst here
      rw [Machine.runStack_choice reached]
      exact ⟨_, .single (step_choice stands reached), rfl, step_menu rfl⟩
  | case6 state frame below condition thenBody elseBody rest reached selected ih =>
      rw [Machine.runStack_branch reached]
      refine exists_lands_of_step [] (step_branch stands reached) ?_ ?_
      · intro later state machine
        rfl
      · rw [here]
        exact ih _ here rfl

theorem exists_lands_run (walk : Walk) (fresh : walk.session.machine.menu = none) :
    ∃ stage, Reaches step walk stage ∧
      walk.Lands (walk.session.machine.run walk.session.state) stage := by
  rw [Machine.run, fresh]
  apply exists_lands_runStack _ _ walk rfl
  rw [← fresh]

/-- How a walk and a drive of its session with an allowance for further `go`s come out. -/
def Agrees (walk : Walk) (allowance : Nat) (result : Except StoryError (List Command) × Session)
    (stage : Walk) : Prop :=
  match result.1 with
  | .ok commands =>
    stage.step = none ∧ stage.session = result.2 ∧ stage.shown = walk.shown ++ commands ∧
      stage.gone.length ≤ walk.gone.length + allowance
  | .error error =>
    ∃ target, error = .transferLoop target Session.transferLimit ∧
      stage.step = some (stage.transfer target) ∧
      result.2 = { stage.session with machine := .idle } ∧
      stage.gone.length = walk.gone.length + allowance

theorem agrees_of_ended {walk stage : Walk}
    (lands : walk.Lands (walk.session.machine.run walk.session.state) stage)
    (stays : ∀ target, walk.session.run.2.1 ≠ .transferred target) (allowance : Nat) :
    walk.Agrees allowance (walk.session.drive allowance) stage := by
  cases ended : walk.session.run.2.1 with
  | completed =>
      rw [Lands, show (walk.session.machine.run walk.session.state).flow = .completed from ended]
        at lands
      obtain ⟨rfl, stops⟩ := lands
      rw [Session.drive_completed ended]
      exact ⟨stops, rfl, rfl, Nat.le_add_right _ _⟩
  | suspended count =>
      rw [Lands, show (walk.session.machine.run walk.session.state).flow = .suspended count
        from ended] at lands
      obtain ⟨rfl, stops⟩ := lands
      rw [Session.drive_suspended ended]
      exact ⟨stops, rfl, rfl, Nat.le_add_right _ _⟩
  | transferred target => exact absurd ended (stays target)

theorem agrees_of_transfer {walk stage final : Walk} {target : String} {fewer : Nat}
    {commands : List Command} {result : Except StoryError (List Command) × Session}
    (shown : stage.shown = walk.shown ++ commands) (gone : stage.gone = walk.gone)
    (later : (stage.transfer target).Agrees fewer result final) :
    walk.Agrees (fewer + 1)
      (Session.before (commands ++ (stage.session.enterScene target).2) result) final := by
  have count : (stage.transfer target).gone.length + fewer = walk.gone.length + (fewer + 1) := by
    rw [transfer, gone, List.length_append, List.length_singleton]
    omega
  obtain ⟨outcome, session⟩ := result
  cases outcome with
  | error error =>
      obtain ⟨next, same, stepped, left, length⟩ := later
      exact ⟨next, same, stepped, left, length.trans count⟩
  | ok behind =>
      obtain ⟨stops, left, told, length⟩ := later
      refine ⟨stops, left, ?_, length.trans_eq count⟩
      rw [told, transfer, shown]
      simp only [List.append_assoc]

theorem exists_stage_of_transferred {walk : Walk} {target : String}
    (fresh : walk.session.machine.menu = none)
    (ended : walk.session.run.2.1 = .transferred target) :
    ∃ stage, Reaches step walk stage ∧ stage.step = some (stage.transfer target) ∧
      stage.shown = walk.shown ++ walk.session.run.2.2 ∧ stage.gone = walk.gone ∧
      walk.session.run.1 = { stage.session with machine := .idle } ∧
      walk.session.run.1.enterScene target = stage.session.enterScene target := by
  obtain ⟨stage, reaches, lands⟩ := exists_lands_run walk fresh
  have settled := Machine.run_settled fresh walk.session.state
  rw [Run.Settled, show (walk.session.machine.run walk.session.state).flow = .transferred target
    from ended] at settled
  rw [Lands, show (walk.session.machine.run walk.session.state).flow = .transferred target
    from ended] at lands
  obtain ⟨⟨machine, rfl⟩, stepped⟩ := lands
  refine ⟨_, reaches, stepped, rfl, rfl, ?_, ?_⟩
  · rw [← settled]
    rfl
  · exact Session.enterScene_congr rfl rfl rfl rfl rfl target

-- The induction is on the `go`s that may still be followed: each one starts a new run in its target.
theorem exists_agrees_drive (walk : Walk) (fresh : walk.session.machine.menu = none)
    (allowance : Nat) :
    ∃ stage, Reaches step walk stage ∧
      walk.Agrees allowance (walk.session.drive allowance) stage := by
  induction allowance generalizing walk with
  | zero =>
      by_cases leaves : ∃ target, walk.session.run.2.1 = .transferred target
      · obtain ⟨target, ended⟩ := leaves
        obtain ⟨stage, reaches, stepped, -, gone, left, -⟩ :=
          exists_stage_of_transferred fresh ended
        rw [Session.drive_limit ended]
        exact ⟨stage, reaches, target, rfl, stepped, left, congrArg List.length gone⟩
      · obtain ⟨stage, reaches, lands⟩ := exists_lands_run walk fresh
        exact ⟨stage, reaches, agrees_of_ended lands (not_exists.1 leaves) 0⟩
  | succ fewer ih =>
      by_cases leaves : ∃ target, walk.session.run.2.1 = .transferred target
      · obtain ⟨target, ended⟩ := leaves
        obtain ⟨stage, reaches, stepped, shown, gone, -, entered⟩ :=
          exists_stage_of_transferred fresh ended
        obtain ⟨final, onward, later⟩ :=
          ih (stage.transfer target) (stage.session.enterScene_fresh target).1
        refine ⟨final, (reaches.tail stepped).trans onward, ?_⟩
        rw [Session.drive_transfer ended, entered]
        exact agrees_of_transfer shown gone later
      · obtain ⟨stage, reaches, lands⟩ := exists_lands_run walk fresh
        exact ⟨stage, reaches, agrees_of_ended lands (not_exists.1 leaves) (fewer + 1)⟩

/--
A call that begins with a walk and may follow `limit` transfers. If the walk ends behind at most that
many, the call gives what the walk has shown, what it waits for and its session. Otherwise, also if
the walk never ends, the call fails at the `go` behind the last transfer that is allowed: the state
stays as it is there, its scene is the last target, nothing is waited for and nothing is left to run,
so every tick behind the call shows nothing and changes nothing.
-/
structure Limited (walk : Walk) (limit : Nat) (outcome : Except StoryError Batch × Session) :
    Prop where
  within : ∀ final ∈ eval step walk, final.gone.length ≤ limit →
    outcome = (.ok ⟨final.shown, final.session.state.waiting⟩, final.session)
  beyond : (∀ final ∈ eval step walk, limit < final.gone.length) →
    ∃ stage target, Reaches step walk stage ∧ stage.gone.length = limit ∧
      (∃ next, stage.step = some next ∧ next.gone = stage.gone ++ [target]) ∧
      outcome = (.error (.transferLoop target limit), { stage.session with machine := .idle }) ∧
      stage.session.state.scene = stage.gone.getLast? ∧
      stage.session.state.waiting = .nothing ∧
      ∀ input, outcome.2.tick input = (.ok ⟨[], .nothing⟩, outcome.2)

theorem limited_of_ends {walk stage : Walk} {limit : Nat} (ends : stage ∈ eval step walk)
    (count : stage.gone.length ≤ limit) :
    walk.Limited limit (.ok ⟨stage.shown, stage.session.state.waiting⟩, stage.session) := by
  refine ⟨?_, ?_⟩
  · intro final ended within
    rw [Part.mem_unique ended ends]
  · intro beyond
    exact absurd (beyond stage ends) (Nat.not_lt.2 count)

theorem limited_of_still {walk : Walk} (still : walk.step = none) (begins : walk.gone = [])
    (limit : Nat) :
    walk.Limited limit (.ok ⟨walk.shown, walk.session.state.waiting⟩, walk.session) := by
  apply limited_of_ends
  · exact mem_eval.2 ⟨.refl, still⟩
  · rw [begins]
    exact Nat.zero_le limit

theorem limited_of_cut {walk stage : Walk} {limit : Nat} {target : String}
    (begins : walk.gone = []) (reaches : Reaches step walk stage)
    (stepped : stage.step = some (stage.transfer target)) (count : stage.gone.length = limit)
    (positive : 0 < limit) (quiet : stage.session.state.waiting = .nothing)
    (begun : stage.session.started = true) :
    walk.Limited limit
      (.error (.transferLoop target limit), { stage.session with machine := .idle }) := by
  refine ⟨?_, ?_⟩
  · intro final ended within
    -- The walk goes on behind the stage, so it ends with more `go`s than that.
    have onward : final ∈ eval step (stage.transfer target) := by
      rw [← reaches_eval (reaches.tail stepped)]
      exact ended
    obtain ⟨targets, gone, -⟩ := gone_of_reaches (mem_eval.1 onward).1
    rw [gone, transfer, List.length_append, List.length_append, List.length_singleton, count]
      at within
    omega
  · intro beyond
    obtain ⟨targets, gone, scene⟩ := gone_of_reaches reaches
    rw [begins, List.nil_append] at gone
    have moved : stage.gone.getLast? ≠ none := by
      rw [ne_eq, List.getLast?_eq_none_iff, ← List.length_eq_zero_iff, count]
      exact Nat.ne_of_gt positive
    rw [← gone, Option.or_of_isSome (Option.isSome_iff_ne_none.2 moved)] at scene
    refine ⟨stage, target, reaches, count, ⟨_, stepped, rfl⟩, rfl, scene, quiet, ?_⟩
    intro input
    exact Session.tick_idle input begun quiet rfl

theorem limited_drive (walk : Walk) (begins : walk.gone = [])
    (fresh : walk.session.machine.menu = none) (calm : walk.session.state.waiting = .nothing)
    (begun : walk.session.started = true) :
    walk.Limited Session.transferLimit
      (Session.batch (Session.before walk.shown (walk.session.drive Session.transferLimit))) := by
  obtain ⟨stage, reaches, agrees⟩ := exists_agrees_drive walk fresh Session.transferLimit
  have driven := Session.driven_drive walk.session Session.transferLimit fresh calm
  rw [Agrees, begins, List.length_nil, Nat.zero_add] at agrees
  generalize walk.session.drive Session.transferLimit = result at agrees driven
  obtain ⟨outcome, session⟩ := result
  cases outcome with
  | ok commands =>
      obtain ⟨stops, rfl, shown, count⟩ := agrees
      have ended := limited_of_ends (mem_eval.2 ⟨reaches, stops⟩) count
      rw [shown] at ended
      exact ended
  | error error =>
      obtain ⟨target, rfl, stepped, rfl, count⟩ := agrees
      apply limited_of_cut begins reaches stepped count
      · decide
      · exact Session.waiting_of_idle { stage.session with machine := .idle } driven.coherent rfl
      · exact driven.started.trans begun

end Walk

namespace Session

/-- The walk that a request begins, unless it is refused with an error before. -/
def embark (session : Session) : Request → Except StoryError Walk
  | .start id => .ok ⟨session.opened id, session.opening id, []⟩
  | .tick input =>
    if session.started then
      (input.elim (.ok session) session.handle).map fun handled => ⟨handled, [], []⟩
    else
      .error .notStarted

theorem embark_cases {session : Session} {request : Request} {walk : Walk}
    (embarked : session.embark request = .ok walk) :
    (∃ id, walk = ⟨session.opened id, session.opening id, []⟩) ∨ walk = ⟨session, [], []⟩ ∨
      ∃ (items : List MenuItem) (index : Nat) (item : MenuItem),
        session.machine.menu = some items ∧ items[index]? = some item ∧
        walk = ⟨session.resumed item, [], []⟩ := by
  cases request with
  | start id =>
      cases embarked
      exact .inl ⟨id, rfl⟩
  | tick input =>
      rw [embark] at embarked
      split at embarked
      · cases taken : input.elim (.ok session) session.handle with
        | error error =>
            rw [taken] at embarked
            cases embarked
        | ok handled =>
            rw [taken] at embarked
            cases embarked
            right
            obtain rfl | ⟨items, index, item, pending, found, rfl⟩ := handle_cases taken
            · exact .inl rfl
            · exact .inr ⟨items, index, item, pending, found, rfl⟩
      · cases embarked

theorem drive_of_coherent {session : Session} (coherent : session.Coherent) (allowance : Nat) :
    session.drive allowance = (.ok [], session) := by
  cases waits : session.state.waiting with
  | nothing =>
      have idle : session.machine = .idle := by simpa only [Coherent, waits] using coherent
      have still := run_idle idle
      have ended : session.run.2.1 = .completed := by rw [still]
      rw [drive_completed ended, still]
  | choice count =>
      simp only [Coherent, waits] at coherent
      obtain ⟨items, pending, rfl, -⟩ := coherent
      have still : session.run = (session, .suspended items.length, []) := by
        simp only [run, Machine.run, pending]
      have ended : session.run.2.1 = .suspended items.length := by rw [still]
      rw [drive_suspended ended, still, State.wait, ← waits]

theorem respond_of_embark {session : Session} (coherent : session.Coherent) {request : Request}
    {walk : Walk} (embarked : session.embark request = .ok walk) :
    session.respond request =
      batch (before walk.shown (walk.session.drive transferLimit)) := by
  cases request with
  | start id =>
      cases embarked
      exact session.start_opening id
  | tick input =>
      have still := drive_of_coherent coherent transferLimit
      revert embarked
      apply tick_elim coherent (motive := fun input outcome =>
        session.embark (.tick input) = .ok walk →
          outcome = batch (before walk.shown (walk.session.drive transferLimit)))
      · intro input fresh embarked
        simp [embark, fresh] at embarked
      · intro input begun calm embarked
        simp only [embark, begun, handle_calm input calm, if_true] at embarked
        cases embarked
        rw [still, ← calm]
        rfl
      · intro count begun waits embarked
        simp only [embark, begun, if_true] at embarked
        cases embarked
        rw [still, ← waits]
        rfl
      · intro count index begun waits outside embarked
        simp [embark, begun, handle, waits, outside, Except.map] at embarked
      · intro items index item begun waits pending found embarked
        have handled := handle_select waits pending found
        simp only [embark, begun, Option.elim_some, handled, if_true] at embarked
        cases embarked
        rw [before_nil]

theorem respond_of_refused {session : Session} {request : Request} {error : StoryError}
    (refused : session.embark request = .error error) :
    session.respond request = (.error error, session) := by
  cases request with
  | start id => cases refused
  | tick input =>
      cases begun : session.started with
      | false =>
          rw [embark, begun] at refused
          cases refused
          exact tick_notStarted input begun
      | true =>
          simp only [embark, begun, if_true] at refused
          cases handled : input.elim (.ok session) session.handle with
          | ok next =>
              rw [handled] at refused
              cases refused
          | error fault =>
              rw [handled] at refused
              cases refused
              simp only [respond, tick, begun, if_true, handled]

/--
After any requests, every call agrees with a walk that has no limit, up to ten thousand transfers:
with at most that many, the call gives exactly what the walk comes to, and with more of them, or with
no end to them, it fails at the `go` behind the last one. A call that is refused runs nothing.
-/
theorem respond_limited (program : Program) (requests : List Request) (request : Request) :
    let session := (new program).replay requests
    match session.embark request with
    | .ok walk => walk.Limited 10000 (session.respond request)
    | .error error => session.respond request = (.error error, session) := by
  intro session
  have reached : Reached session (requests.any Request.isStart) := reached_replay program requests
  cases request with
  | start id =>
      obtain ⟨fresh, state, -, started⟩ :=
        enterScene_fresh { session with started := true, state := session.state.clearWait } id
      exact Walk.limited_drive ⟨session.opened id, session.opening id, []⟩ rfl fresh
        (congrArg State.waiting state) started
  | tick input =>
      apply tick_elim reached.coherent (motive := fun input outcome =>
        match session.embark (.tick input) with
        | .ok walk => walk.Limited 10000 outcome
        | .error error => outcome = (.error error, session))
      · intro input fresh
        simp [embark, fresh]
      · intro input begun calm
        have whole : session.embark (.tick input) = .ok ⟨session, [], []⟩ := by
          simp [embark, begun, handle_calm input calm, Except.map]
        have idle : session.machine = .idle := by
          simpa only [Coherent, calm] using reached.coherent
        rw [whole, ← calm]
        exact Walk.limited_of_still (Walk.step_nil idle) rfl 10000
      · intro count begun waits
        have whole : session.embark (.tick none) = .ok ⟨session, [], []⟩ := by
          simp [embark, begun, Except.map]
        rw [whole, ← waits]
        obtain ⟨items, pending, -⟩ := ((waiting_iff_menu reached.coherent).1 count).1 waits
        exact Walk.limited_of_still (Walk.step_menu pending) rfl 10000
      · intro count index begun waits outside
        simp [embark, begun, handle, waits, outside, Except.map]
      · intro items index item begun waits pending found
        have whole : session.embark (.tick (some (.choose index))) =
            .ok ⟨session.resumed item, [], []⟩ := by
          simp [embark, begun, handle_select waits pending found, Except.map]
        rw [whole]
        have driven := Walk.limited_drive ⟨session.resumed item, [], []⟩ rfl rfl rfl begun
        rw [before_nil] at driven
        exact driven

end Session

end SceneScript
