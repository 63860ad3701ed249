import SceneScript.Proofs.Analysis.Findings
import SceneScript.Proofs.Script.Index
import SceneScript.Proofs.Story.Batches
import SceneScript.Proofs.Story.Coverage

/-!
# The list of images is complete

Whatever a session shows, it shows while some scene is current, and an image is always one that the
program lists for that scene. A run stays in its scene, and what the machine has still to run is
part of that scene: this is the invariant. It is set up anew whenever a scene is entered, which
needs the index to find the scene that has the id.
-/

namespace SceneScript

set_option autoImplicit false

namespace Program

def ListsImage (program : Program) (current : Option String) (path : String) : Prop :=
  ∃ id, current = some id ∧ (id, path) ∈ program.imageReferences

/-- A statement that shows no image but one that is listed for the current scene. -/
def Allows (program : Program) (current : Option String) (statement : Statement) : Prop :=
  ∀ path, statement = .act (.image path) → program.ListsImage current path

theorem everywhere_allows {program : Program} {scene : Scene} (member : scene ∈ program.scenes) :
    scene.body.Everywhere (program.Allows (some scene.id)) := by
  intro visit met path shows
  refine ⟨scene.id, rfl, List.mem_flatMap.2 ⟨scene, Array.mem_toList_iff.2 member, ?_⟩⟩
  refine List.mem_map.2 ⟨path, List.mem_filterMap.2 ⟨visit, met, ?_⟩, rfl⟩
  rw [Visit.image?, shows]

end Program

theorem Action.eq_image_of_perform {action : Action} {state : State} {path : String}
    (shown : .showImage path ∈ (action.perform state).2) : action = .image path := by
  cases action <;> simp_all [perform]

namespace Machine

variable {good : Statement → Prop}

theorem everywhere_images (state : State) (stack : Stack)
    (holds : ∀ frame ∈ stack, frame.body.Everywhere good) :
    ∀ path, .showImage path ∈ (runStack state stack).commands → good (.act (.image path)) := by
  induction state, stack using runStack.induct with
  | case1 state => simp [runStack_nil]
  | case2 state frame below next ih =>
      rw [runStack_done next]
      exact ih (List.forall_mem_cons.1 holds).2
  | case3 state frame below action behind next changed commands performed ih =>
      rw [runStack_act next, performed]
      intro path shown
      rcases List.mem_append.1 shown with now | later
      · have made : .showImage path ∈ (action.perform state).2 := by rwa [performed]
        rw [← Action.eq_image_of_perform made]
        exact (everywhere_next holds next).1
      · exact ih (everywhere_advance holds) path later
  | case4 state frame below target line behind next => simp [runStack_go next]
  | case5 state frame below label body behind next items position collected =>
      simp [runStack_choice next]
  | case6 state frame below condition thenBody elseBody behind next selected ih =>
      obtain ⟨inThen, inElse⟩ := Block.everywhere_branch.1 (everywhere_next holds next).2
      rw [runStack_branch next]
      apply ih
      exact everywhere_push (everywhere_advance holds) (Menu.everywhere_select inThen inElse)

end Machine

namespace Session

/-- Commands, each with the scene that is current when it is shown. -/
abbrev Trace : Type := List (Option String × Command)

/-- What driving shows, also what is lost with a call that fails in the end. -/
def trace (session : Session) : Nat → Trace
  | 0 => session.run.2.2.map (session.state.scene, ·)
  | fewer + 1 =>
    session.run.2.2.map (session.state.scene, ·) ++
      match session.run.2.1 with
      | .transferred target =>
        let (entered, shown) := session.run.1.enterScene target
        shown.map (some target, ·) ++ entered.trace fewer
      | .completed | .suspended _ => []

/-- What one request shows. -/
def emitted (session : Session) : Request → Trace
  | .start id => (session.opening id).map (some id, ·) ++ (session.opened id).trace transferLimit
  | .tick input =>
    if session.started then
      match input.elim (.ok session) session.handle with
      | .error _ => []
      | .ok handled =>
        if handled.state.waiting.isWaiting then [] else handled.trace transferLimit
    else
      []

/-- The session plays the program, and has only images to show that are listed for its scene. -/
structure Illustrated (program : Program) (session : Session) : Prop where
  plays : session.program = program
  machine : session.machine.Everywhere (program.Allows session.state.scene)

def Listed (program : Program) (trace : Trace) : Prop :=
  ∀ current path, (current, .showImage path) ∈ trace → program.ListsImage current path

variable {session : Session} {program : Program}

theorem listed_append {first second : Trace} :
    Listed program (first ++ second) ↔ Listed program first ∧ Listed program second := by
  simp only [Listed, List.mem_append, or_imp, forall_and]

theorem listed_map {current : Option String} {commands : List Command}
    (every : ∀ path, .showImage path ∈ commands → program.ListsImage current path) :
    Listed program (commands.map (current, ·)) := by
  intro other path shown
  obtain ⟨command, member, same⟩ := List.mem_map.1 shown
  cases same
  exact every path member

theorem illustrated_run (illustrated : Illustrated program session) :
    Illustrated program session.run.1 ∧
      Listed program (session.run.2.2.map (session.state.scene, ·)) := by
  obtain ⟨plays, holds⟩ := illustrated
  obtain ⟨-, -, scene, -⟩ := session.run_keeps
  refine ⟨⟨plays, ?_⟩, listed_map ?_⟩
  · rw [scene]
    exact (Machine.everywhere_run holds session.state).machine
  · intro path shown
    unfold run Machine.run at shown
    split at shown
    · cases shown
    · exact Machine.everywhere_images session.state session.machine.stack holds.stack path shown
        path rfl

theorem illustrated_enterScene (plays : session.program = program)
    (id : String) :
    Illustrated program (session.enterScene id).1 ∧
      Listed program ((session.enterScene id).2.map (some id, ·)) := by
  unfold enterScene
  cases found : session.program.scene? id with
  | none => exact ⟨⟨plays, Machine.everywhere_idle⟩, listed_map (by simp)⟩
  | some scene =>
      rw [plays] at found
      obtain ⟨member, rfl⟩ := Program.scene?_eq_some_iff.1 found
      refine ⟨⟨plays, ?_⟩, listed_map (by simp)⟩
      exact Machine.everywhere_enter (Program.everywhere_allows member)

structure Traced (program : Program) (trace : Trace)
    (result : Except StoryError (List Command) × Session) : Prop where
  commands : ∀ commands, result.1 = .ok commands → commands = trace.map Prod.snd
  listed : Listed program trace
  illustrated : Illustrated program result.2

theorem map_snd_map (current : Option String) (commands : List Command) :
    (commands.map ((current, ·) : Command → Option String × Command)).map Prod.snd = commands := by
  rw [List.map_map]
  exact List.map_id commands

theorem traced_before {first trace : Trace}
    {result : Except StoryError (List Command) × Session} (opens : Listed program first)
    (later : Traced program trace result) :
    Traced program (first ++ trace) (before (first.map Prod.snd) result) where
  commands := by
    intro commands answered
    obtain ⟨behind, passed, rfl⟩ := before_ok answered
    rw [List.map_append, later.commands behind passed]
  listed := listed_append.2 ⟨opens, later.listed⟩
  illustrated := later.illustrated

theorem trace_of_ended {allowance : Nat}
    (last : ∀ target, session.run.2.1 = .transferred target → allowance = 0) :
    session.trace allowance = session.run.2.2.map (session.state.scene, ·) := by
  cases allowance with
  | zero => rfl
  | succ fewer =>
      rw [trace]
      split
      · rename_i target leaves
        cases last target leaves
      · exact List.append_nil _
      · exact List.append_nil _

theorem trace_transfer {fewer : Nat} {target : String}
    (leaves : session.run.2.1 = .transferred target) :
    session.trace (fewer + 1) = session.run.2.2.map (session.state.scene, ·) ++
      (session.run.1.enterScene target).2.map (some target, ·) ++
        (session.run.1.enterScene target).1.trace fewer := by
  rw [trace, leaves, List.append_assoc]

theorem traced_of_ended {allowance : Nat} (illustrated : Illustrated program session)
    (last : ∀ target, session.run.2.1 = .transferred target → allowance = 0) :
    Traced program (session.trace allowance) (session.drive allowance) := by
  obtain ⟨kept, listed⟩ := illustrated_run illustrated
  rw [trace_of_ended last]
  cases ended : session.run.2.1 with
  | completed =>
      rw [drive_completed ended]
      refine ⟨?_, listed, kept⟩
      rintro commands ⟨⟩
      rw [map_snd_map]
  | suspended count =>
      rw [drive_suspended ended]
      refine ⟨?_, listed, ⟨kept.plays, kept.machine⟩⟩
      rintro commands ⟨⟩
      rw [map_snd_map]
  | transferred target =>
      have spent := last target ended
      subst spent
      rw [drive_limit ended]
      exact ⟨nofun, listed, kept⟩

theorem traced_drive (illustrated : Illustrated program session)
    (allowance : Nat) : Traced program (session.trace allowance) (session.drive allowance) := by
  induction allowance generalizing session with
  | zero => exact traced_of_ended illustrated fun _ _ => rfl
  | succ fewer ih =>
      by_cases leaves : ∃ target, session.run.2.1 = .transferred target
      · obtain ⟨target, ended⟩ := leaves
        obtain ⟨kept, listed⟩ := illustrated_run illustrated
        obtain ⟨entered, opens⟩ := illustrated_enterScene kept.plays target
        have joined := traced_before (listed_append.2 ⟨listed, opens⟩) (ih entered)
        rw [List.map_append, map_snd_map, map_snd_map] at joined
        rw [trace_transfer ended, drive_transfer ended]
        exact joined
      · exact traced_of_ended illustrated fun target ended => absurd ⟨target, ended⟩ leaves

theorem emitted_of_not_takes (coherent : session.Coherent) {request : Request}
    (refused : session.takes request = false) : session.emitted request = [] := by
  cases request with
  | start id => cases refused
  | tick input =>
      cases begun : session.started with
      | false => simp [emitted, begun]
      | true =>
          cases waits : session.state.waiting with
          | nothing =>
              have idle : session.machine = .idle := by simpa only [Coherent, waits] using coherent
              have quiet : session.run.2.2 = [] := by rw [run_idle idle]
              have ended : ∀ target, session.run.2.1 = .transferred target → transferLimit = 0 := by
                simp [run_idle idle]
              simp [emitted, begun, handle_calm input waits, waits, Waiting.isWaiting,
                trace_of_ended ended, quiet]
          | choice count =>
              cases input with
              | none => simp [emitted, begun, waits, Waiting.isWaiting]
              | some input =>
                  obtain ⟨index⟩ := input
                  have outside : count ≤ index := by simpa [takes, begun, waits] using refused
                  simp [emitted, begun, handle, waits, outside]

theorem traced_start (plays : session.program = program) (id : String) :
    Traced program (session.emitted (.start id))
      (before (session.opening id) ((session.opened id).drive transferLimit)) := by
  let fresh : Session := { session with started := true, state := session.state.clearWait }
  have same : fresh.program = program := plays
  obtain ⟨entered, opens⟩ := illustrated_enterScene same id
  have shown : Listed program ((session.opening id).map (some id, ·)) := by
    intro current path member
    rcases List.mem_cons.1 member with style | later
    · cases style
    · exact opens current path later
  have joined := traced_before shown (traced_drive entered transferLimit)
  rw [map_snd_map] at joined
  exact joined

theorem traced_select (illustrated : Illustrated program session)
    {items : List MenuItem} {index : Nat} {item : MenuItem}
    (pending : session.machine.menu = some items) (found : items[index]? = some item) :
    Traced program ((session.resumed item).trace transferLimit)
      ((session.resumed item).drive transferLimit) := by
  have inside := illustrated.machine.menu items pending item (List.mem_of_getElem? found)
  have stack := Machine.everywhere_push illustrated.machine.stack inside
  have resumes : Illustrated program (session.resumed item) :=
    ⟨illustrated.plays, stack, by simp [resumed]⟩
  exact traced_drive resumes transferLimit

theorem illustrated_respond (coherent : session.Coherent)
    (illustrated : Illustrated program session) (request : Request) :
    Illustrated program (session.respond request).2 ∧
      Listed program (session.emitted request) ∧
      ∀ answer, (session.respond request).1 = .ok answer →
        answer.commands = (session.emitted request).map Prod.snd := by
  cases taken : session.takes request with
  | false =>
      rw [emitted_of_not_takes coherent taken, respond_of_not_takes coherent taken]
      exact ⟨illustrated, nofun, fun answer answered => commands_refusal answered⟩
  | true =>
      suffices traced : ∃ result, session.respond request = batch result ∧
          Traced program (session.emitted request) result by
        obtain ⟨result, same, traced⟩ := traced
        rw [same]
        exact ⟨traced.illustrated, traced.listed,
          fun answer answered => traced.commands _ (batch_ok answered).1⟩
      cases request with
      | start id => exact ⟨_, session.start_opening id, traced_start illustrated.plays id⟩
      | tick input =>
          obtain ⟨items, index, item, rfl, begun, waits, pending, found⟩ :=
            exists_item_of_takes coherent taken
          have handled := handle_select waits pending found
          have shown : session.emitted (.tick (some (.choose index))) =
              (session.resumed item).trace transferLimit := by
            simp [emitted, begun, handled, resumed, State.clearWait, Waiting.isWaiting]
          rw [shown]
          exact ⟨_, tick_select begun waits pending found,
            traced_select illustrated pending found⟩

theorem illustrated_replay {begun : Bool} (reached : Reached session begun) (illustrated : Illustrated program session)
    (requests : List Request) : Illustrated program (session.replay requests) := by
  induction requests generalizing session begun with
  | nil => exact illustrated
  | cons request rest ih =>
      rw [replay_cons]
      apply ih (reached_respond reached request)
      exact (illustrated_respond reached.coherent illustrated request).1

/--
After any requests, for any further one: the commands that it is answered with are those of its
trace, in order, and every image of the trace, also of the trace of a call that fails, is one that
the program lists for the scene that is current when it is shown.
-/
theorem emitted_images (program : Program) (requests : List Request) (request : Request) :
    let session := (new program).replay requests
    (∀ answer, (session.respond request).1 = .ok answer →
      answer.commands = (session.emitted request).map Prod.snd) ∧
    ∀ current path, (current, .showImage path) ∈ session.emitted request →
      ∃ id, current = some id ∧ (id, path) ∈ program.imageReferences := by
  intro session
  have reached := reached_replay program requests
  have illustrated : Illustrated program session :=
    illustrated_replay (reached_new program) ⟨rfl, Machine.everywhere_idle⟩ requests
  obtain ⟨-, listed, answers⟩ :=
    illustrated_respond reached.coherent illustrated request
  exact ⟨answers, listed⟩

/-- A hall with a picture, and a room behind it that has another one in the dark. -/
def gallery : Program :=
  .ofScenes [
    ⟨"hall", 1, [.act (.image "hall.png"), .choice "in" [.go "room" 4]]⟩,
    ⟨"room", 6, [.branch (.has "lamp") [] [.act (.image "dark.png")]]⟩]

theorem emitted_images_gallery :
    let session := (new gallery).replay [.start "hall"]
    let request : Request := .tick (some (.choose 0))
    session.emitted request =
      [(some "room", .clearTransient), (some "room", .showImage "dark.png")] ∧
    ("room", "dark.png") ∈ gallery.imageReferences := by
  intro session request
  have shown : session.emitted request =
      [(some "room", .clearTransient), (some "room", .showImage "dark.png")] := by
    decide +kernel
  obtain ⟨-, listed⟩ := emitted_images gallery [.start "hall"] request
  obtain ⟨id, same, member⟩ := listed (some "room") "dark.png" (by
    rw [show ((new gallery).replay [.start "hall"]).emitted request = _ from shown]
    simp)
  cases same
  exact ⟨shown, member⟩

end Session

end SceneScript
