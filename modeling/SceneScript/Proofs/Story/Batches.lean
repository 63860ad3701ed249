import SceneScript.Proofs.Story.Itinerary

/-!
# The shape of a batch

A host may rely on the order of what it is given. A batch shows at most one menu, as its last
command, and does so exactly if the story waits for a choice; the labels are those of the pending
menu. Transient output is cleared once for every scene that the call enters. A run shows plain
commands only, so all of this is decided where scenes are entered and where a run ends.
-/

namespace SceneScript

set_option autoImplicit false

namespace Command

def isMenu : Command → Bool
  | presentChoices _ => true
  | _ => false

/-- Neither a menu nor the clearing of transient output. -/
def isPlain : Command → Bool
  | presentChoices _ | clearTransient => false
  | _ => true

theorem isMenu_of_isPlain {command : Command} (plain : command.isPlain = true) :
    command.isMenu = false := by
  cases command <;> first | rfl | cases plain

end Command

theorem Action.isPlain_of_perform (action : Action) (state : State) :
    ∀ command ∈ (action.perform state).2, command.isPlain = true := by
  cases action <;> simp [perform, Command.isPlain]

namespace Machine

def offer (machine : Machine) : List Command :=
  match machine.menu with
  | none => []
  | some items => [.presentChoices (items.map MenuItem.label)]

theorem mem_offer {machine : Machine} {labels : List String} :
    .presentChoices labels ∈ machine.offer ↔
      ∃ items, machine.menu = some items ∧ labels = items.map MenuItem.label := by
  unfold offer
  split <;> simp_all

theorem count_offer (machine : Machine) : machine.offer.count .clearTransient = 0 := by
  unfold offer
  split <;> simp

theorem menu_not_mem_dropLast {front : List Command}
    (silent : ∀ command ∈ front, command.isMenu = false) (machine : Machine)
    (labels : List String) : .presentChoices labels ∉ (front ++ machine.offer).dropLast := by
  intro early
  have inFront : .presentChoices labels ∈ front := by
    unfold offer at early
    split at early
    · rw [List.append_nil] at early
      exact List.dropLast_subset front early
    · rwa [List.dropLast_concat] at early
  cases silent _ inFront

theorem runStack_shown (state : State) (stack : Stack) :
    ∃ front, (∀ command ∈ front, command.isPlain = true) ∧
      (runStack state stack).commands = front ++ (runStack state stack).machine.offer := by
  induction state, stack using runStack.induct with
  | case1 state =>
      rw [runStack_nil]
      exact ⟨[], by simp, rfl⟩
  | case2 state frame below next ih =>
      rw [runStack_done next]
      exact ih
  | case3 state frame below action behind next changed commands performed ih =>
      obtain ⟨front, plain, shown⟩ := ih
      have first := action.isPlain_of_perform state
      rw [performed] at first
      rw [runStack_act next, performed]
      refine ⟨commands ++ front, List.forall_mem_append.2 ⟨first, plain⟩, ?_⟩
      rw [Run.before, shown, List.append_assoc]
  | case4 state frame below target line behind next =>
      rw [runStack_go next]
      exact ⟨[], by simp, rfl⟩
  | case5 state frame below label body behind next items position collected =>
      rw [runStack_choice next]
      exact ⟨[], by simp, rfl⟩
  | case6 state frame below condition thenBody elseBody behind next selected ih =>
      rw [runStack_branch next]
      exact ih

end Machine

namespace Session

variable {session : Session}

theorem run_shown (fresh : session.machine.menu = none) :
    ∃ front, (∀ command ∈ front, command.isMenu = false) ∧
      front.count .clearTransient = 0 ∧
      session.run.2.2 = front ++ session.run.1.machine.offer := by
  obtain ⟨front, plain, shown⟩ := Machine.runStack_shown session.state session.machine.stack
  refine ⟨front, fun command member => Command.isMenu_of_isPlain (plain command member), ?_, ?_⟩
  · refine List.count_eq_zero.2 fun member => ?_
    cases plain _ member
  · simp only [run, Machine.run, fresh]
    exact shown

theorem enterScene_shown (session : Session) (id : String) :
    (∀ command ∈ (session.enterScene id).2, command.isMenu = false) ∧
      (session.enterScene id).2.count .clearTransient = 1 ∧
      ∃ rest, (session.enterScene id).2 = .clearTransient :: rest := by
  unfold enterScene
  split
  · exact ⟨by simp [Command.isMenu], by simp, [], rfl⟩
  · exact ⟨by simp [Command.isMenu], by simp, _, rfl⟩

/-- What a call shows: no menu but the pending one at its end, and one clearing for each scene. -/
def Delivers (visited : List String) (result : Except StoryError (List Command) × Session) : Prop :=
  ∀ commands, result.1 = .ok commands →
    ∃ front, (∀ command ∈ front, command.isMenu = false) ∧
      front.count .clearTransient = visited.length ∧ commands = front ++ result.2.machine.offer

theorem before_ok {shown commands : List Command}
    {result : Except StoryError (List Command) × Session}
    (answered : (before shown result).1 = .ok commands) :
    ∃ behind, result.1 = .ok behind ∧ commands = shown ++ behind := by
  obtain ⟨outcome, after⟩ := result
  cases outcome with
  | error error => cases answered
  | ok behind =>
      cases answered
      exact ⟨behind, rfl, rfl⟩

theorem delivers_before {shown : List Command} {first visited : List String}
    {result : Except StoryError (List Command) × Session}
    (quiet : ∀ command ∈ shown, command.isMenu = false)
    (cleared : shown.count .clearTransient = first.length) (later : Delivers visited result) :
    Delivers (first ++ visited) (before shown result) := by
  intro commands answered
  obtain ⟨behind, passed, rfl⟩ := before_ok answered
  obtain ⟨front, silent, counted, shape⟩ := later behind passed
  refine ⟨shown ++ front, List.forall_mem_append.2 ⟨quiet, silent⟩, ?_, ?_⟩
  · rw [List.count_append, cleared, counted, List.length_append]
  · rw [shape, List.append_assoc]
    rfl

theorem delivers_drive (fresh : session.machine.menu = none) (allowance : Nat) :
    Delivers (session.transfers allowance) (session.drive allowance) := by
  revert fresh
  apply drive_elim (motive := fun session visited result =>
    session.machine.menu = none → Delivers visited result)
  · intro session ended fresh commands answered
    cases answered
    exact run_shown fresh
  · intro session count ended fresh commands answered
    cases answered
    exact run_shown fresh
  · intro session target ended fresh commands answered
    cases answered
  · intro session target visited result ended later fresh
    obtain ⟨front, silent, never, shown⟩ := run_shown fresh
    obtain ⟨quiet, once, -⟩ := session.run.1.enterScene_shown target
    have settled : Run.Settled (session.machine.run session.state) := Machine.run_settled fresh _
    rw [Run.Settled, show (session.machine.run session.state).flow = .transferred target
      from ended] at settled
    have closed : session.run.1.machine.offer = [] := by
      rw [show session.run.1.machine = .idle from settled]
      rfl
    rw [closed, List.append_nil] at shown
    rw [shown]
    change Delivers ([target] ++ visited) _
    apply delivers_before
    · exact List.forall_mem_append.2 ⟨silent, quiet⟩
    · rw [List.count_append, never, once]
      rfl
    · exact later (session.run.1.enterScene_fresh target).1

theorem batch_ok {result : Except StoryError (List Command) × Session} {answer : Batch}
    (answered : (batch result).1 = .ok answer) :
    result.1 = .ok answer.commands ∧ answer.waiting = result.2.state.waiting := by
  obtain ⟨outcome, after⟩ := result
  cases outcome with
  | error error => cases answered
  | ok commands =>
      cases answered
      exact ⟨rfl, rfl⟩

theorem delivers_start (session : Session) (id : String) :
    Delivers (id :: (session.opened id).transfers transferLimit)
      (before (session.opening id) ((session.opened id).drive transferLimit)) := by
  obtain ⟨quiet, once, -⟩ :=
    enterScene_shown { session with started := true, state := session.state.clearWait } id
  change Delivers ([id] ++ (session.opened id).transfers transferLimit) _
  apply delivers_before
  · exact List.forall_mem_cons.2 ⟨rfl, quiet⟩
  · rw [opening, List.count_cons, once]
    rfl
  · exact delivers_drive (enterScene_fresh _ id).1 transferLimit

theorem respond_delivers (coherent : session.Coherent) {request : Request}
    (taken : session.takes request = true) :
    ∃ result, session.respond request = batch result ∧
      Delivers (session.entered request) result := by
  revert taken
  apply respond_elim coherent (motive := fun request visited outcome =>
    session.takes request = true → ∃ result, outcome = batch result ∧ Delivers visited result)
  · intro id taken
    exact ⟨_, session.start_opening id, session.delivers_start id⟩
  · intro items index item begun waits pending found taken
    have fresh : (session.resumed item).machine.menu = none := rfl
    exact ⟨_, rfl, delivers_drive fresh transferLimit⟩
  · intro request refused taken
    rw [refused] at taken
    cases taken

theorem respond_shown (coherent : session.Coherent) {request : Request} {answer : Batch}
    (taken : session.takes request = true)
    (answered : (session.respond request).1 = .ok answer) :
    ∃ front, (∀ command ∈ front, command.isMenu = false) ∧
      front.count .clearTransient = (session.entered request).length ∧
      answer.commands = front ++ (session.respond request).2.machine.offer ∧
      answer.waiting = (session.respond request).2.state.waiting := by
  obtain ⟨result, same, delivers⟩ := respond_delivers coherent taken
  rw [same] at answered ⊢
  obtain ⟨commands, waiting⟩ := batch_ok answered
  obtain ⟨front, silent, counted, shape⟩ := delivers _ commands
  exact ⟨front, silent, counted, shape, waiting⟩

theorem start_shown {id : String} {answer : Batch} (answered : (session.start id).1 = .ok answer) :
    ∃ rest, answer.commands = .applyStyle session.state.style :: .clearTransient :: rest := by
  obtain ⟨-, -, rest, opens⟩ :=
    enterScene_shown { session with started := true, state := session.state.clearWait } id
  rw [start_opening] at answered
  obtain ⟨behind, -, split⟩ := before_ok (batch_ok answered).1
  rw [opening, opens] at split
  exact ⟨rest ++ behind, split⟩

theorem respond_menu {begun : Bool} (reached : Reached session begun) {request : Request}
    {answer : Batch} (taken : session.takes request = true)
    (answered : (session.respond request).1 = .ok answer) :
    ((∃ labels, .presentChoices labels ∈ answer.commands) ↔
      ∃ count, answer.waiting = .choice count) ∧
    ∀ labels, .presentChoices labels ∈ answer.commands →
      ∃ items, (session.respond request).2.machine.menu = some items ∧
        labels = items.map MenuItem.label ∧ answer.waiting = .choice items.length ∧
        1 ≤ items.length := by
  obtain ⟨front, silent, -, shape, waiting⟩ := respond_shown reached.coherent taken answered
  obtain ⟨menus, offered⟩ := waiting_iff_menu (reached_respond reached request).coherent
  have atEnd : ∀ labels, .presentChoices labels ∈ answer.commands ↔
      ∃ items, (session.respond request).2.machine.menu = some items ∧
        labels = items.map MenuItem.label := by
    intro labels
    rw [shape, List.mem_append, Machine.mem_offer]
    apply or_iff_right
    intro early
    cases silent _ early
  simp only [atEnd, waiting, menus]
  refine ⟨⟨?_, ?_⟩, ?_⟩
  · rintro ⟨labels, items, pending, -⟩
    exact ⟨items.length, items, pending, rfl⟩
  · rintro ⟨count, items, pending, -⟩
    exact ⟨_, items, pending, rfl⟩
  · rintro labels ⟨items, pending, listed⟩
    exact ⟨items, pending, listed, ⟨items, pending, rfl⟩, offered items pending⟩

theorem commands_refusal {request : Request} {answer : Batch}
    (answered : session.refusal request = .ok answer) : answer.commands = [] := by
  unfold refusal at answered
  split at answered
  · split at answered
    · cases answered
    · cases answered
      rfl
  · cases answered

/--
After any requests, whatever call is answered with a batch: a menu stands in it at most once and only
at the end. A start and a selection show one exactly if the story then waits, and it lists the labels
of the pending menu, as many as are waited for and at least one; every other call shows nothing. A
start begins with the style that was current before and a clearing, and a batch clears as often as
the call enters a scene.
-/
theorem respond_batch (program : Program) (requests : List Request) (request : Request)
    (answer : Batch)
    (answered : (((new program).replay requests).respond request).1 = .ok answer) :
    let session := (new program).replay requests
    let after := (session.respond request).2
    (∀ labels, .presentChoices labels ∉ answer.commands.dropLast) ∧
    (session.takes request = true →
      ((∃ labels, .presentChoices labels ∈ answer.commands) ↔
        ∃ count, answer.waiting = .choice count) ∧
      ∀ labels, .presentChoices labels ∈ answer.commands →
        ∃ items, after.machine.menu = some items ∧ labels = items.map MenuItem.label ∧
          answer.waiting = .choice items.length ∧ 1 ≤ items.length) ∧
    (session.takes request = false → answer.commands = []) ∧
    (∀ id, request = .start id →
      ∃ rest, answer.commands = .applyStyle session.state.style :: .clearTransient :: rest) ∧
    answer.commands.count .clearTransient = (session.entered request).length := by
  intro session after
  have reached := reached_replay program requests
  cases taken : session.takes request with
  | false =>
      rw [respond_of_not_takes reached.coherent taken] at answered
      have silent := commands_refusal answered
      refine ⟨?_, ?_, ?_, ?_, ?_⟩
      · simp [silent]
      · simp
      · intro _
        exact silent
      · rintro id rfl
        cases taken
      · rw [silent, entered_of_not_takes reached.coherent taken]
        rfl
  | true =>
      obtain ⟨front, silent, counted, shape, -⟩ := respond_shown reached.coherent taken answered
      refine ⟨?_, ?_, ?_, ?_, ?_⟩
      · rw [shape]
        exact Machine.menu_not_mem_dropLast silent _
      · intro _
        exact respond_menu reached taken answered
      · simp
      · rintro id rfl
        exact start_shown answered
      · rw [shape, List.count_append, counted, Machine.count_offer]
        rfl

/-- A yard whose second choice leads back through the gate. -/
def gate : Program :=
  .ofScenes [
    ⟨"gate", 1, [.act (.print "It creaks."), .go "yard" 3]⟩,
    ⟨"yard", 5, [.choice "in" [], .choice "back" [.go "gate" 8]]⟩]

theorem respond_batch_gate :
    let session := (new gate).replay [.start "gate"]
    let request : Request := .tick (some (.choose 1))
    let shown : List Command :=
      [.clearTransient, .showText "It creaks.", .clearTransient, .presentChoices ["in", "back"]]
    (session.respond request).1 = .ok ⟨shown, .choice 2⟩ ∧
      (∀ labels, .presentChoices labels ∉ shown.dropLast) ∧
      shown.count .clearTransient = (session.entered request).length := by
  intro session request shown
  have computed : (session.respond request).1.toOption = some ⟨shown, .choice 2⟩ := by
    decide +kernel
  have answered : (session.respond request).1 = .ok ⟨shown, .choice 2⟩ := by
    generalize (session.respond request).1 = outcome at computed
    cases outcome with
    | error error => cases computed
    | ok answer => exact congrArg Except.ok (Option.some.inj computed)
  obtain ⟨last, -, -, -, cleared⟩ :=
    respond_batch gate [.start "gate"] request ⟨shown, .choice 2⟩ answered
  exact ⟨answered, last, cleared⟩

end Session

end SceneScript
