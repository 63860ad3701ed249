import SceneScript.Proofs.Story.Steps
import SceneScript.Story.Session

/-!
# What holds after any sequence of requests

A session is driven by requests: starting a scene, or going on with or without an input. Whatever
was requested before, and whether it failed or not, the machine and the state agree on what the
story waits for, and a session that waits for nothing has nothing left to run.
-/

namespace SceneScript.Session

set_option autoImplicit false

inductive Request where
  | start (id : String)
  | tick (input : Option Input)
deriving DecidableEq

def Request.isStart : Request → Bool
  | start _ => true
  | tick _ => false

def respond (session : Session) : Request → Except StoryError Batch × Session
  | .start id => session.start id
  | .tick input => session.tick input

/-- The session behind a sequence of requests, those that failed included. -/
def replay (session : Session) (requests : List Request) : Session :=
  requests.foldl (fun current request => (current.respond request).2) session

theorem replay_cons (session : Session) (request : Request) (rest : List Request) :
    session.replay (request :: rest) = (session.respond request).2.replay rest :=
  rfl

/-- The answer to each request of a sequence, with the session that it leaves. -/
def outcomes (session : Session) : List Request → List (Except StoryError Batch × Session)
  | [] => []
  | request :: rest => session.respond request :: (session.respond request).2.outcomes rest

/-- The machine is idle, or its menu is what the state waits for. -/
def Coherent (session : Session) : Prop :=
  match session.state.waiting with
  | .nothing => session.machine = .idle
  | .choice count =>
    ∃ items, session.machine.menu = some items ∧ items.length = count ∧ items ≠ []

theorem waiting_iff_menu {session : Session} (coherent : session.Coherent) :
    (∀ count, session.state.waiting = .choice count ↔
      ∃ items, session.machine.menu = some items ∧ items.length = count) ∧
    ∀ items, session.machine.menu = some items → 1 ≤ items.length := by
  cases waits : session.state.waiting with
  | nothing =>
      simp only [Coherent, waits] at coherent
      simp [coherent, Machine.idle]
  | choice expected =>
      simp only [Coherent, waits] at coherent
      obtain ⟨items, pending, same, offered⟩ := coherent
      simp only [pending, Option.some.injEq, Waiting.choice.injEq, exists_eq_left']
      refine ⟨fun count => by rw [same], ?_⟩
      intro others equal
      rw [← equal]
      exact List.length_pos_iff.2 offered

theorem idle_of_calm {session : Session} (coherent : session.Coherent)
    (calm : session.state.waiting = .nothing) :
    session.machine.stack = [] ∧ session.machine.menu = none := by
  simp only [Coherent, calm] at coherent
  rw [coherent]
  exact ⟨rfl, rfl⟩

theorem isFinished_iff {session : Session} (coherent : session.Coherent) :
    session.isFinished = true ↔ session.started = true ∧ session.state.waiting = .nothing := by
  cases waits : session.state.waiting with
  | nothing =>
      obtain ⟨empty, closed⟩ := idle_of_calm coherent waits
      simp [isFinished, Machine.isIdle, waits, Waiting.isWaiting, empty, closed]
  | choice count => simp [isFinished, waits, Waiting.isWaiting]

/-- What driving a session keeps, and how it may fail. -/
structure Driven (session : Session) (result : Except StoryError (List Command) × Session) :
    Prop where
  coherent : result.2.Coherent
  program : result.2.program = session.program
  started : result.2.started = session.started
  scene : session.state.scene.isSome → result.2.state.scene.isSome
  failure : ∀ error, result.1 = .error error → ∃ target, error = .transferLoop target transferLimit

theorem enterScene_fresh (session : Session) (id : String) :
    (session.enterScene id).1.machine.menu = none ∧
      (session.enterScene id).1.state = { session.state with scene := some id } ∧
      (session.enterScene id).1.program = session.program ∧
      (session.enterScene id).1.started = session.started := by
  unfold enterScene
  split <;> exact ⟨rfl, rfl, rfl, rfl⟩

section Drive

variable {session : Session} {allowance count : Nat} {target : String}

theorem drive_completed (ended : session.run.2.1 = .completed) :
    session.drive allowance = (.ok session.run.2.2, session.run.1) := by
  unfold drive
  simp only [ended]

theorem drive_suspended (ended : session.run.2.1 = .suspended count) :
    session.drive allowance =
      (.ok session.run.2.2,
        { session.run.1 with state := session.run.1.state.wait (.choice count) }) := by
  unfold drive
  simp only [ended]

theorem drive_limit (ended : session.run.2.1 = .transferred target) :
    session.drive 0 = (.error (.transferLoop target transferLimit), session.run.1) := by
  unfold drive
  simp only [ended]

theorem drive_transfer (ended : session.run.2.1 = .transferred target) :
    session.drive (allowance + 1) =
      before (session.run.2.2 ++ (session.run.1.enterScene target).2)
        ((session.run.1.enterScene target).1.drive allowance) := by
  rw [drive]
  simp only [ended]

end Drive

theorem run_keeps (session : Session) :
    session.run.1.program = session.program ∧ session.run.1.started = session.started ∧
      session.run.1.state.scene = session.state.scene ∧
      session.run.1.state.waiting = session.state.waiting :=
  ⟨rfl, rfl, session.machine.run_scene_waiting session.state⟩

theorem before_error {commands : List Command}
    {result : Except StoryError (List Command) × Session} {error : StoryError} :
    (before commands result).1 = .error error ↔ result.1 = .error error := by
  unfold before
  cases result.1 <;> simp [Except.map]

theorem driven_of_run {session : Session} {allowance : Nat}
    (fresh : session.machine.menu = none) (calm : session.state.waiting = .nothing)
    (last : ∀ target, session.run.2.1 = .transferred target → allowance = 0) :
    Driven session (session.drive allowance) := by
  obtain ⟨program, started, scene, waiting⟩ := session.run_keeps
  have settled : Run.Settled (session.machine.run session.state) := Machine.run_settled fresh _
  have quiet : session.run.1.state.waiting = .nothing := waiting.trans calm
  have kept : session.state.scene.isSome → session.run.1.state.scene.isSome := by
    rw [scene]
    exact id
  cases ended : session.run.2.1 with
  | completed =>
      rw [drive_completed ended]
      refine ⟨?_, program, started, kept, by simp⟩
      rw [Run.Settled, show (session.machine.run session.state).flow = .completed from ended]
        at settled
      simp only [Coherent, quiet]
      exact settled
  | suspended count =>
      rw [drive_suspended ended]
      refine ⟨?_, program, started, kept, by simp⟩
      rw [Run.Settled, show (session.machine.run session.state).flow = .suspended count from ended]
        at settled
      exact settled
  | transferred target =>
      have spent := last target ended
      subst spent
      rw [drive_limit ended]
      refine ⟨?_, program, started, kept, ?_⟩
      · rw [Run.Settled, show (session.machine.run session.state).flow = .transferred target
          from ended] at settled
        simp only [Coherent, quiet]
        exact settled
      · intro error failed
        exact ⟨target, (Except.error.inj failed).symm⟩

theorem driven_drive (session : Session) (allowance : Nat)
    (fresh : session.machine.menu = none) (calm : session.state.waiting = .nothing) :
    Driven session (session.drive allowance) := by
  induction allowance generalizing session with
  | zero => exact driven_of_run fresh calm (fun _ _ => rfl)
  | succ allowance ih =>
      by_cases leaves : ∃ target, session.run.2.1 = .transferred target
      · obtain ⟨target, ended⟩ := leaves
        obtain ⟨program, started, scene, waiting⟩ := session.run_keeps
        obtain ⟨empty, entered, sameProgram, sameStarted⟩ := session.run.1.enterScene_fresh target
        have later := ih (session.run.1.enterScene target).1 empty (by
          rw [entered]
          exact waiting.trans calm)
        rw [drive_transfer ended]
        exact
          { coherent := later.coherent
            program := later.program.trans (sameProgram.trans program)
            started := later.started.trans (sameStarted.trans started)
            scene := fun _ => later.scene (by rw [entered]; rfl)
            failure := fun error failed => later.failure error (before_error.1 failed) }
      · exact driven_of_run fresh calm fun target ended => absurd ⟨target, ended⟩ leaves

theorem batch_error {result : Except StoryError (List Command) × Session} {error : StoryError} :
    (batch result).1 = .error error ↔ result.1 = .error error := by
  unfold batch
  cases result.1 <;> simp [Except.map]

def opened (session : Session) (id : String) : Session :=
  (enterScene { session with started := true, state := session.state.clearWait } id).1

theorem start_eq (session : Session) (id : String) :
    ∃ shown, session.start id = batch (before shown ((session.opened id).drive transferLimit)) :=
  ⟨_, rfl⟩

theorem driven_opened (session : Session) (id : String) :
    Driven (session.opened id) ((session.opened id).drive transferLimit) := by
  obtain ⟨empty, entered, -, -⟩ :=
    enterScene_fresh { session with started := true, state := session.state.clearWait } id
  refine driven_drive _ _ empty ?_
  rw [opened, entered]
  rfl

def resumed (session : Session) (item : MenuItem) : Session :=
  { session with
    machine := ⟨session.machine.stack.push item.body, none⟩
    state := session.state.clearWait }

theorem driven_resumed (session : Session) (item : MenuItem) :
    Driven (session.resumed item) ((session.resumed item).drive transferLimit) :=
  driven_drive _ _ rfl rfl

section Tick

variable {session : Session} {count index : Nat}

theorem tick_notStarted (input : Option Input) (fresh : session.started = false) :
    session.tick input = (.error .notStarted, session) := by
  simp [tick, fresh]

theorem handle_calm (input : Option Input) (calm : session.state.waiting = .nothing) :
    input.elim (.ok session) session.handle = .ok session := by
  cases input with
  | none => rfl
  | some input =>
      cases input with
      | choose index => simp [handle, calm]

theorem run_idle (idle : session.machine = .idle) : session.run = (session, .completed, []) := by
  obtain ⟨program, state, machine, started⟩ := session
  subst idle
  simp [run, Machine.run, Machine.idle, Machine.runStack_nil]

theorem tick_idle (input : Option Input) (begun : session.started = true)
    (calm : session.state.waiting = .nothing) (idle : session.machine = .idle) :
    session.tick input = (.ok ⟨[], .nothing⟩, session) := by
  have run := run_idle idle
  have ended : session.run.2.1 = .completed := by rw [run]
  simp only [tick, begun, if_true, handle_calm input calm, calm, Waiting.isWaiting]
  rw [drive_completed ended, run]
  simp [batch, Except.map, calm]

theorem tick_waiting (begun : session.started = true)
    (waits : session.state.waiting = .choice count) :
    session.tick none = (.ok ⟨[], .choice count⟩, session) := by
  simp [tick, begun, waits, Waiting.isWaiting]

theorem tick_invalid (begun : session.started = true)
    (waits : session.state.waiting = .choice count) (outside : count ≤ index) :
    session.tick (some (.choose index)) = (.error (.invalidChoice index count), session) := by
  simp [tick, begun, handle, waits, outside]

theorem handle_select {items : List MenuItem} {item : MenuItem}
    (waits : session.state.waiting = .choice items.length)
    (pending : session.machine.menu = some items) (found : items[index]? = some item) :
    session.handle (.choose index) = .ok (session.resumed item) := by
  have inside : ¬ items.length ≤ index := by
    obtain ⟨bound, -⟩ := List.getElem?_eq_some_iff.1 found
    omega
  simp [handle, waits, inside, Machine.select, pending, found, Except.map, resumed]

theorem tick_select {items : List MenuItem} {item : MenuItem} (begun : session.started = true)
    (waits : session.state.waiting = .choice items.length)
    (pending : session.machine.menu = some items) (found : items[index]? = some item) :
    session.tick (some (.choose index)) = batch ((session.resumed item).drive transferLimit) := by
  have handled := handle_select waits pending found
  simp [tick, begun, handled, resumed, State.clearWait, Waiting.isWaiting]

theorem handle_cases {handled : Session} {input : Option Input}
    (taken : input.elim (.ok session) session.handle = .ok handled) :
    handled = session ∨ ∃ (items : List MenuItem) (index : Nat) (item : MenuItem),
      session.machine.menu = some items ∧ items[index]? = some item ∧
      handled = session.resumed item := by
  cases input with
  | none =>
      cases taken
      exact .inl rfl
  | some input =>
      obtain ⟨index⟩ := input
      simp only [Option.elim_some, handle] at taken
      split at taken
      · cases taken
        exact .inl rfl
      · split at taken
        · cases taken
        · simp only [Machine.select] at taken
          split at taken
          · cases taken
          · rename_i items pending
            split at taken
            · cases taken
            · rename_i item found
              cases taken
              exact .inr ⟨items, index, item, pending, found, rfl⟩

theorem tick_elim {motive : Option Input → Except StoryError Batch × Session → Prop}
    (coherent : session.Coherent)
    (notStarted : ∀ input, session.started = false → motive input (.error .notStarted, session))
    (idle : ∀ input, session.started = true → session.state.waiting = .nothing →
      motive input (.ok ⟨[], .nothing⟩, session))
    (waiting : ∀ count, session.started = true → session.state.waiting = .choice count →
      motive none (.ok ⟨[], .choice count⟩, session))
    (invalid : ∀ count index, session.started = true → session.state.waiting = .choice count →
      count ≤ index →
      motive (some (.choose index)) (.error (.invalidChoice index count), session))
    (select : ∀ items index item, session.started = true →
      session.state.waiting = .choice items.length → session.machine.menu = some items →
      items[index]? = some item →
      motive (some (.choose index)) (batch ((session.resumed item).drive transferLimit)))
    (input : Option Input) : motive input (session.tick input) := by
  cases begun : session.started with
  | false =>
      rw [tick_notStarted input begun]
      exact notStarted input begun
  | true =>
      cases waits : session.state.waiting with
      | nothing =>
          simp only [Coherent, waits] at coherent
          rw [tick_idle input begun waits coherent]
          exact idle input begun waits
      | choice count =>
          simp only [Coherent, waits] at coherent
          obtain ⟨items, pending, same, -⟩ := coherent
          cases input with
          | none =>
              rw [tick_waiting begun waits]
              exact waiting count begun waits
          | some input =>
              obtain ⟨index⟩ := input
              by_cases outside : count ≤ index
              · rw [tick_invalid begun waits outside]
                exact invalid count index begun waits outside
              · subst same
                have found : items[index]? = some (items.get ⟨index, Nat.not_le.1 outside⟩) :=
                  List.getElem?_eq_getElem _
                rw [tick_select begun waits pending found]
                exact select items index _ begun waits pending found

end Tick

/-- What holds of a session after requests, `begun` telling whether a scene was ever started. -/
structure Reached (session : Session) (begun : Bool) : Prop where
  coherent : session.Coherent
  started : session.started = begun
  scene : session.state.scene.isSome = begun

theorem reached_new (program : Program) : Reached (new program) false :=
  ⟨rfl, rfl, rfl⟩

theorem reached_start (session : Session) (id : String) : Reached (session.start id).2 true := by
  obtain ⟨shown, same⟩ := session.start_eq id
  obtain ⟨-, entered, -, begun⟩ :=
    enterScene_fresh { session with started := true, state := session.state.clearWait } id
  have driven := session.driven_opened id
  rw [same]
  refine ⟨driven.coherent, driven.started.trans begun, driven.scene ?_⟩
  rw [opened, entered]
  rfl

theorem reached_tick {session : Session} {begun : Bool} (reached : Reached session begun)
    (input : Option Input) : Reached (session.tick input).2 begun := by
  apply tick_elim (motive := fun _ result => Reached result.2 begun) reached.coherent
  · intro input fresh
    exact reached
  · intro input started calm
    exact reached
  · intro count started waits
    exact reached
  · intro count index started waits outside
    exact reached
  · intro items index item started waits pending found
    have driven := session.driven_resumed item
    have same : begun = true := reached.started.symm.trans started
    have scene : session.state.scene.isSome := reached.scene.trans same
    refine ⟨driven.coherent, driven.started.trans reached.started, ?_⟩
    rw [same]
    exact driven.scene scene

theorem reached_respond {session : Session} {begun : Bool} (reached : Reached session begun)
    (request : Request) : Reached (session.respond request).2 (begun || request.isStart) := by
  cases request with
  | start id => simpa [Request.isStart, respond] using session.reached_start id
  | tick input => simpa [Request.isStart, respond] using reached_tick reached input

theorem reached_replay (program : Program) (requests : List Request) :
    Reached ((new program).replay requests) (requests.any Request.isStart) := by
  suffices general : ∀ (session : Session) (begun : Bool), Reached session begun →
      Reached (session.replay requests) (begun || requests.any Request.isStart) by
    simpa using general (new program) false (reached_new program)
  induction requests with
  | nil => simp [replay]
  | cons request rest ih =>
      intro session begun reached
      cases request with
      | start id =>
          have later := ih _ true (session.reached_start id)
          rw [replay_cons]
          simpa [Request.isStart, respond] using later
      | tick input =>
          have later := ih _ begun (reached_tick reached input)
          rw [replay_cons]
          simpa [Request.isStart, respond] using later

theorem start_error {session : Session} {id : String} {error : StoryError}
    (failed : (session.start id).1 = .error error) :
    ∃ target, error = .transferLoop target transferLimit := by
  obtain ⟨shown, same⟩ := session.start_eq id
  rw [same, batch_error, before_error] at failed
  exact (session.driven_opened id).failure error failed

/-- How a tick may fail: before the first start, and behind it at an index or in a loop of `go`s. -/
def TickFault (session : Session) : StoryError → Prop
  | .notStarted => session.started = false
  | .invalidChoice _ _ => session.started = true
  | .transferLoop _ limit => session.started = true ∧ limit = transferLimit
  | .noMenu _ => False

theorem tick_error {session : Session} (coherent : session.Coherent) (input : Option Input)
    {error : StoryError} (failed : (session.tick input).1 = .error error) :
    session.TickFault error := by
  revert failed
  apply tick_elim (motive := fun _ result => result.1 = .error error → session.TickFault error)
    coherent
  · intro input fresh failed
    rw [← Except.error.inj failed]
    exact fresh
  · intro input started calm failed
    cases failed
  · intro count started waits failed
    cases failed
  · intro count index started waits outside failed
    rw [← Except.error.inj failed]
    exact started
  · intro items index item started waits pending found failed
    obtain ⟨target, same⟩ := (session.driven_resumed item).failure error (batch_error.1 failed)
    rw [same]
    exact ⟨started, rfl⟩

/--
After any requests: the story waits for `count` choices exactly if a menu with `count` items is
pending, and no menu is empty; a session that waits for nothing has nothing left to run and is
finished once a scene was started; a scene is current exactly if one was started; a tick never asks
for a menu that is not there and fails for want of a start exactly if there was none; and starting a
scene fails only with too many transfers.
-/
theorem replay_coherent (program : Program) (requests : List Request) :
    let session := (new program).replay requests
    let begun := requests.any Request.isStart
    ((∀ count, session.state.waiting = .choice count ↔
        ∃ items, session.machine.menu = some items ∧ items.length = count) ∧
      ∀ items, session.machine.menu = some items → 1 ≤ items.length) ∧
    ((session.state.waiting = .nothing → session.machine.stack = [] ∧ session.machine.menu = none) ∧
      (session.isFinished = true ↔ begun = true ∧ session.state.waiting = .nothing)) ∧
    (session.state.scene.isSome = true ↔ begun = true) ∧
    (∀ input index, (session.tick input).1 ≠ .error (.noMenu index)) ∧
    (∀ input, (session.tick input).1 = .error .notStarted ↔ begun = false) ∧
    (∀ id error, (session.start id).1 = .error error →
      ∃ target, error = .transferLoop target transferLimit) := by
  intro session begun
  have reached : Reached session begun := reached_replay program requests
  have started := reached.started
  have coherent := reached.coherent
  refine ⟨?_, ?_, ?_, ?_, ?_, ?_⟩
  · exact waiting_iff_menu coherent
  · refine ⟨idle_of_calm coherent, ?_⟩
    rw [isFinished_iff coherent, started]
  · rw [reached.scene]
  · intro input index failed
    exact tick_error coherent input failed
  · intro input
    constructor
    · intro failed
      exact started.symm.trans (tick_error coherent input failed)
    · intro fresh
      rw [tick_notStarted input (started.trans fresh)]
  · intro id error failed
    exact start_error failed

end SceneScript.Session
