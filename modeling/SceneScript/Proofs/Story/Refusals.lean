import SceneScript.Proofs.Story.Reachability

/-!
# Requests that change nothing

A session takes a start and a selection that its menu has. Every other request is refused: it is
answered and the session stays as it was, machine and menu included. This needs the sessions to be
coherent, because a tick that has nothing to select still runs the machine. Refused requests can
therefore be put anywhere into a sequence without a trace in the other answers.
-/

namespace SceneScript.Session

set_option autoImplicit false

/-- Whether a request starts a scene or selects an item of the pending menu. -/
def takes (session : Session) : Request → Bool
  | .start _ => true
  | .tick none => false
  | .tick (some (.choose index)) =>
    session.started &&
      match session.state.waiting with
      | .nothing => false
      | .choice count => index < count

def refusal (session : Session) (request : Request) : Except StoryError Batch :=
  if session.started then
    match request, session.state.waiting with
    | .tick (some (.choose index)), .choice count => .error (.invalidChoice index count)
    | _, waiting => .ok ⟨[], waiting⟩
  else
    .error .notStarted

theorem respond_of_not_takes {session : Session} (coherent : session.Coherent) {request : Request}
    (refused : session.takes request = false) :
    session.respond request = (session.refusal request, session) := by
  cases request with
  | start id => simp [takes] at refused
  | tick input =>
      revert refused
      apply tick_elim coherent (motive := fun input result =>
        session.takes (.tick input) = false → result = (session.refusal (.tick input), session))
      · intro input fresh refused
        simp [refusal, fresh]
      · intro input started calm refused
        simp [refusal, started, calm]
      · intro count started waits refused
        simp [refusal, started, waits]
      · intro count index started waits outside refused
        simp [refusal, started, waits]
      · intro items index item started waits pending found refused
        have inside : index < items.length := (List.getElem?_eq_some_iff.1 found).1
        simp [takes, started, waits, inside] at refused

theorem exists_item_of_takes {session : Session} (coherent : session.Coherent)
    {input : Option Input} (taken : session.takes (.tick input) = true) :
    ∃ items index item, input = some (.choose index) ∧ session.started = true ∧
      session.state.waiting = .choice items.length ∧ session.machine.menu = some items ∧
      items[index]? = some item := by
  cases input with
  | none => cases taken
  | some input =>
      obtain ⟨index⟩ := input
      obtain ⟨begun, inside⟩ := Bool.and_eq_true_iff.1 taken
      cases waits : session.state.waiting with
      | nothing => simp [waits] at inside
      | choice count =>
          simp only [waits, decide_eq_true_eq] at inside
          simp only [Coherent, waits] at coherent
          obtain ⟨items, pending, rfl, -⟩ := coherent
          exact ⟨items, index, _, rfl, begun, rfl, pending, List.getElem?_eq_getElem inside⟩

/-- A sequence in which a request is marked only if it is refused where it stands. -/
def Padded (session : Session) : List (Request × Bool) → Prop
  | [] => True
  | (request, extra) :: rest =>
    (extra = true → session.takes request = false) ∧ Padded (session.respond request).2 rest

/-- The requests that are not marked. -/
def plain (requests : List (Request × Bool)) : List Request :=
  (requests.filter fun request => !request.2).map Prod.fst

def unmarked {α : Type} (requests : List (Request × Bool)) (values : List α) : List α :=
  ((requests.zip values).filter fun pair => !pair.1.2).map Prod.snd

theorem unmarked_outcomes {session : Session} {begun : Bool} (reached : Reached session begun)
    {requests : List (Request × Bool)} (padded : session.Padded requests) :
    unmarked requests (session.outcomes (requests.map Prod.fst)) =
      session.outcomes (plain requests) := by
  induction requests generalizing session begun with
  | nil => rfl
  | cons first rest ih =>
      obtain ⟨request, extra⟩ := first
      obtain ⟨refused, later⟩ := padded
      have kept := ih (reached_respond reached request) later
      cases extra with
      | false => simpa [unmarked, plain, outcomes] using kept
      | true =>
          have still := respond_of_not_takes reached.coherent (refused rfl)
          rw [still] at kept
          simpa [unmarked, plain, outcomes, still] using kept

theorem tick_of_select_error {session : Session} {index count : Nat} {error : StoryError}
    (begun : session.started = true) (waits : session.state.waiting = .choice count)
    (inside : index < count) (failed : session.machine.select index = .error error) :
    session.tick (some (.choose index)) = (.error error, session) := by
  have handled : session.handle (.choose index) = .error error := by
    simp [handle, waits, Nat.not_le.2 inside, failed, Except.map]
  simp [tick, begun, handled]

/--
After any requests, a tick that selects nothing leaves the whole session as it was. Before the first
start it fails for want of one; an index that the pending menu does not have is reported with the
size of the menu; every other such tick shows nothing and tells what the story waits for. Refused
requests that are put into a sequence change no other answer and no session behind one. A selection
that a machine refuses, in whatever state, leaves the machine and everything around it unchanged.
-/
theorem replay_refusals (program : Program) (requests : List Request) :
    let session := (new program).replay requests
    let begun := requests.any Request.isStart
    (begun = false → ∀ input, session.tick input = (.error .notStarted, session)) ∧
    (begun = true → session.tick none = (.ok ⟨[], session.state.waiting⟩, session)) ∧
    (begun = true → session.state.waiting = .nothing →
      ∀ index, session.tick (some (.choose index)) = (.ok ⟨[], .nothing⟩, session)) ∧
    (begun = true → ∀ count, session.state.waiting = .choice count → ∀ index, count ≤ index →
      session.tick (some (.choose index)) = (.error (.invalidChoice index count), session)) ∧
    (∀ later, session.Padded later →
      unmarked later (session.outcomes (later.map Prod.fst)) = session.outcomes (plain later)) ∧
    (∀ (other : Session) (index count : Nat) (error : StoryError), other.started = true →
      other.state.waiting = .choice count → index < count →
      other.machine.select index = .error error →
      other.tick (some (.choose index)) = (.error error, other)) := by
  intro session begun
  have reached : Reached session begun := reached_replay program requests
  refine ⟨?_, ?_, ?_, ?_, ?_, ?_⟩
  · intro fresh input
    exact tick_notStarted input (reached.started.trans fresh)
  · intro started
    have untaken : session.takes (.tick none) = false := rfl
    have answer := respond_of_not_takes reached.coherent untaken
    simpa [respond, refusal, reached.started, started] using answer
  · intro started calm index
    have untaken : session.takes (.tick (some (.choose index))) = false := by simp [takes, calm]
    have answer := respond_of_not_takes reached.coherent untaken
    simpa [respond, refusal, reached.started, started, calm] using answer
  · intro started count waits index outside
    exact tick_invalid (reached.started.trans started) waits outside
  · intro later padded
    exact unmarked_outcomes reached padded
  · intro other index count error started waits inside failed
    exact tick_of_select_error started waits inside failed

end SceneScript.Session
