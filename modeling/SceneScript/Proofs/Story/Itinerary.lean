import SceneScript.Proofs.Story.Refusals

/-!
# The scenes that a session enters

A call may enter several scenes: the one that is started, and behind it the target of every `go`
that is followed. They are listed here in order, failed calls included. Driving a session and
answering a request each come with one principle that shows result and list together, so that a fact
about both is proved once for each way in which a run can end and for each kind of request.
-/

namespace SceneScript.Session

set_option autoImplicit false

/-- The targets of the `go`s that driving a session follows. -/
def transfers (session : Session) : Nat → List String
  | 0 => []
  | fewer + 1 =>
    match session.run.2.1 with
    | .transferred target => target :: (session.run.1.enterScene target).1.transfers fewer
    | .completed | .suspended _ => []

/-- The scenes that one request enters. -/
def entered (session : Session) : Request → List String
  | .start id => id :: (session.opened id).transfers transferLimit
  | .tick input =>
    if session.started then
      match input.elim (.ok session) session.handle with
      | .error _ => []
      | .ok handled =>
        if handled.state.waiting.isWaiting then [] else handled.transfers transferLimit
    else
      []

/-- The scenes that a sequence of requests enters. -/
def itinerary (session : Session) : List Request → List String
  | [] => []
  | request :: rest => session.entered request ++ (session.respond request).2.itinerary rest

theorem transfers_of_ended {session : Session}
    (ended : ∀ target, session.run.2.1 ≠ .transferred target) (allowance : Nat) :
    session.transfers allowance = [] := by
  cases allowance with
  | zero => rfl
  | succ fewer =>
      rw [transfers]
      split
      · rename_i target leaves
        exact absurd leaves (ended target)
      · rfl
      · rfl

theorem drive_elim
    {motive : Session → List String → Except StoryError (List Command) × Session → Prop}
    (completed : ∀ session : Session, session.run.2.1 = .completed →
      motive session [] (.ok session.run.2.2, session.run.1))
    (suspended : ∀ (session : Session) (count : Nat), session.run.2.1 = .suspended count →
      motive session [] (.ok session.run.2.2,
        { session.run.1 with state := session.run.1.state.wait (.choice count) }))
    (limit : ∀ (session : Session) (target : String), session.run.2.1 = .transferred target →
      motive session [] (.error (.transferLoop target transferLimit), session.run.1))
    (transfer : ∀ (session : Session) (target : String) (visited : List String)
      (result : Except StoryError (List Command) × Session),
      session.run.2.1 = .transferred target →
      motive (session.run.1.enterScene target).1 visited result →
      motive session (target :: visited)
        (before (session.run.2.2 ++ (session.run.1.enterScene target).2) result))
    (session : Session) (allowance : Nat) :
    motive session (session.transfers allowance) (session.drive allowance) := by
  have stops : ∀ (session : Session) (allowance : Nat),
      (∀ target, session.run.2.1 ≠ .transferred target) →
      motive session (session.transfers allowance) (session.drive allowance) := by
    intro session allowance stays
    rw [transfers_of_ended stays]
    cases ended : session.run.2.1 with
    | completed =>
        rw [drive_completed ended]
        exact completed session ended
    | suspended count =>
        rw [drive_suspended ended]
        exact suspended session count ended
    | transferred target => exact absurd ended (stays target)
  induction allowance generalizing session with
  | zero =>
      by_cases leaves : ∃ target, session.run.2.1 = .transferred target
      · obtain ⟨target, ended⟩ := leaves
        rw [drive_limit ended]
        exact limit session target ended
      · exact stops session 0 (not_exists.1 leaves)
  | succ fewer ih =>
      by_cases leaves : ∃ target, session.run.2.1 = .transferred target
      · obtain ⟨target, ended⟩ := leaves
        rw [drive_transfer ended, transfers, ended]
        apply transfer session target _ _ ended
        exact ih (session.run.1.enterScene target).1
      · exact stops session (fewer + 1) (not_exists.1 leaves)

theorem entered_of_not_takes {session : Session} (coherent : session.Coherent) {request : Request}
    (refused : session.takes request = false) : session.entered request = [] := by
  cases request with
  | start id => simp [takes] at refused
  | tick input =>
      cases begun : session.started with
      | false => simp [entered, begun]
      | true =>
          cases waits : session.state.waiting with
          | nothing =>
              -- The tick does drive the machine, but there is nothing on it.
              have idle : session.machine = .idle := by simpa only [Coherent, waits] using coherent
              have ended : ∀ target, session.run.2.1 ≠ .transferred target := by
                simp [run_idle idle]
              simp [entered, begun, handle_calm input waits, waits, Waiting.isWaiting,
                transfers_of_ended ended]
          | choice count =>
              cases input with
              | none => simp [entered, begun, waits, Waiting.isWaiting]
              | some input =>
                  obtain ⟨index⟩ := input
                  have outside : count ≤ index := by
                    simpa [takes, begun, waits] using refused
                  simp [entered, begun, handle, waits, outside]

/-- A request starts a scene, selects an item of the pending menu or is refused. -/
theorem respond_elim {session : Session} (coherent : session.Coherent)
    {motive : Request → List String → Except StoryError Batch × Session → Prop}
    (start : ∀ id, motive (.start id) (id :: (session.opened id).transfers transferLimit)
      (session.start id))
    (select : ∀ items index item, session.started = true →
      session.state.waiting = .choice items.length → session.machine.menu = some items →
      items[index]? = some item →
      motive (.tick (some (.choose index))) ((session.resumed item).transfers transferLimit)
        (batch ((session.resumed item).drive transferLimit)))
    (refuse : ∀ request, session.takes request = false →
      motive request [] (session.refusal request, session))
    (request : Request) : motive request (session.entered request) (session.respond request) := by
  cases taken : session.takes request with
  | false =>
      rw [entered_of_not_takes coherent taken, respond_of_not_takes coherent taken]
      exact refuse request taken
  | true =>
      cases request with
      | start id => exact start id
      | tick input =>
          obtain ⟨items, index, item, rfl, begun, waits, pending, found⟩ :=
            exists_item_of_takes coherent taken
          have handled := handle_select waits pending found
          have visited : session.entered (.tick (some (.choose index))) =
              (session.resumed item).transfers transferLimit := by
            simp [entered, begun, handled, resumed, State.clearWait, Waiting.isWaiting]
          rw [visited, respond, tick_select begun waits pending found]
          exact select items index item begun waits pending found

theorem getLast?_cons_or (first : String) (rest : List String) (other : Option String) :
    (first :: rest).getLast?.or other = rest.getLast?.or (some first) := by
  rw [List.getLast?_cons]
  cases rest.getLast? <;> rfl

theorem scene_drive (session : Session) (allowance : Nat) :
    (session.drive allowance).2.state.scene =
      (session.transfers allowance).getLast?.or session.state.scene := by
  apply drive_elim (motive := fun session visited result =>
    result.2.state.scene = visited.getLast?.or session.state.scene)
  · intro session ended
    exact session.run_keeps.2.2.1
  · intro session count ended
    exact session.run_keeps.2.2.1
  · intro session target ended
    exact session.run_keeps.2.2.1
  · intro session target visited result ended later
    rw [(session.run.1.enterScene_fresh target).2.1] at later
    rw [getLast?_cons_or]
    exact later

/-- What a start shows before it runs the scene. -/
def opening (session : Session) (id : String) : List Command :=
  .applyStyle session.state.style ::
    (enterScene { session with started := true, state := session.state.clearWait } id).2

theorem start_opening (session : Session) (id : String) : session.start id =
    batch (before (session.opening id) ((session.opened id).drive transferLimit)) :=
  rfl

theorem scene_opened (session : Session) (id : String) :
    (session.opened id).state.scene = some id := by
  rw [opened, (enterScene_fresh _ id).2.1]

theorem scene_respond {session : Session} (coherent : session.Coherent) (request : Request) :
    (session.respond request).2.state.scene =
      (session.entered request).getLast?.or session.state.scene := by
  apply respond_elim coherent (motive := fun _ visited result =>
    result.2.state.scene = visited.getLast?.or session.state.scene)
  · intro id
    have driven := (session.opened id).scene_drive transferLimit
    rw [scene_opened] at driven
    rw [getLast?_cons_or]
    exact driven
  · intro items index item begun waits pending found
    exact (session.resumed item).scene_drive transferLimit
  · intro request refused
    rfl

theorem scene_replay {session : Session} {begun : Bool} (reached : Reached session begun)
    (requests : List Request) :
    (session.replay requests).state.scene =
      (session.itinerary requests).getLast?.or session.state.scene := by
  induction requests generalizing session begun with
  | nil => rfl
  | cons request rest ih =>
      rw [replay_cons, ih (reached_respond reached request), scene_respond reached.coherent,
        itinerary, List.getLast?_append, Option.or_assoc]

end SceneScript.Session
