import SceneScript.Proofs.Story.TransferLimit
import SceneScript.Proofs.Story.Turns

/-!
# The style that a host has seen

A host learns of the style only through commands: the current one at a start, and each new one when
a statement changes it. Commands come in batches, and the batch of a call that follows too many
`go`s is lost. As long as none is lost, the last style that was shown is the style of the state; and
whatever is lost, that style comes from the style at a start by the changes that were executed
since.
-/

namespace SceneScript

set_option autoImplicit false

namespace Command

def style? : Command → Option Style
  | applyStyle style => some style
  | _ => none

/-- The style that was shown last. -/
def lastStyle (commands : List Command) : Option Style :=
  (commands.filterMap style?).getLast?

/-- What a host has for the style, if it had one before the commands. -/
def mirror (style : Style) (commands : List Command) : Style :=
  (lastStyle commands).getD style

theorem lastStyle_append (first second : List Command) :
    lastStyle (first ++ second) = (lastStyle second).or (lastStyle first) := by
  rw [lastStyle, List.filterMap_append, List.getLast?_append]
  rfl

theorem mirror_append (style : Style) (first second : List Command) :
    mirror style (first ++ second) = mirror (mirror style first) second := by
  rw [mirror, lastStyle_append, mirror, mirror]
  cases lastStyle second <;> rfl

theorem lastStyle_applyStyle (style : Style) (commands : List Command) :
    lastStyle (applyStyle style :: commands) =
      some (mirror style (applyStyle style :: commands)) := by
  rw [mirror, ← List.singleton_append, lastStyle_append]
  cases lastStyle commands <;> rfl

end Command

def Visit.change? (visit : Visit) : Option StyleChange :=
  match visit.statement with
  | .act (.style change) => some change
  | _ => none

def Style.behind (style : Style) (executed : List Visit) : Style :=
  (executed.filterMap Visit.change?).foldl Style.apply style

theorem Style.behind_nil (style : Style) : style.behind [] = style :=
  rfl

theorem Style.behind_append (style : Style) (first second : List Visit) :
    style.behind (first ++ second) = (style.behind first).behind second := by
  rw [behind, List.filterMap_append, List.foldl_append]
  rfl

theorem Action.perform_style (action : Action) (behind : Block) (state : State) :
    (action.perform state).1.style = state.style.behind [⟨.act action, behind⟩] ∧
      Command.mirror state.style (action.perform state).2 = (action.perform state).1.style := by
  cases action <;> exact ⟨rfl, rfl⟩

/-- A run that began with the style: its changes made the current one, and it has shown it. -/
structure Moment.Mirrors (style : Style) (moment : Moment) : Prop where
  changed : moment.state.style = style.behind moment.executed
  shown : Command.mirror style moment.commands = moment.state.style

namespace Moment

variable {style : Style} {moment later : Moment}

theorem mirrors_execute (mirrors : moment.Mirrors style) (frame : Frame) (below : Stack)
    (statement : Statement) (behind : Block) :
    ((moment.note ⟨statement, behind⟩).execute frame below statement).Mirrors style := by
  obtain ⟨changed, shown⟩ := mirrors
  have noted : style.behind (moment.note ⟨statement, behind⟩).executed =
      moment.state.style.behind [⟨statement, behind⟩] := by
    rw [note, Style.behind_append, changed]
  cases statement with
  | act action =>
      obtain ⟨made, told⟩ := action.perform_style behind moment.state
      refine ⟨made.trans noted.symm, ?_⟩
      change Command.mirror style (moment.commands ++ (action.perform moment.state).2) = _
      rw [Command.mirror_append, shown]
      exact told
  | go target line => exact ⟨noted.symm, shown⟩
  | choice label body =>
      refine ⟨noted.symm, ?_⟩
      change Command.mirror style (moment.commands ++ [_]) = _
      rw [Command.mirror_append, shown]
      rfl
  | branch condition thenBody elseBody => exact ⟨noted.symm, shown⟩

theorem mirrors_next (turned : moment.next = some later) (mirrors : moment.Mirrors style) :
    later.Mirrors style := by
  revert mirrors
  refine next_elim (motive := fun moment later =>
    moment.Mirrors style → later.Mirrors style) ?_ ?_ ?_ ?_ turned
  · intro moment items runs pending mirrors
    exact ⟨mirrors.changed, mirrors.shown⟩
  · intro moment runs stands mirrors
    exact ⟨mirrors.changed, mirrors.shown⟩
  · intro moment frame below runs stands rest mirrors
    exact ⟨mirrors.changed, mirrors.shown⟩
  · intro moment frame below statement behind runs stands rest mirrors
    exact mirrors_execute mirrors frame below statement behind

end Moment

theorem Machine.run_style (machine : Machine) (state : State) :
    (machine.run state).state.style = state.style.behind (machine.executed state) ∧
      Command.mirror state.style (machine.run state).commands =
        (machine.run state).state.style := by
  have start : (Moment.begin machine state).Mirrors state.style := ⟨rfl, rfl⟩
  have ends := Moment.last_of_kept (fun _ _ turned => Moment.mirrors_next turned) start
  rw [Moment.last_begin] at ends
  exact ⟨ends.changed, ends.shown⟩

namespace Session

/-- The statements that driving executes, those of a call that fails included. -/
def executedWithin (session : Session) : Nat → List Visit
  | 0 => session.machine.executed session.state
  | fewer + 1 =>
    session.machine.executed session.state ++
      match session.run.2.1 with
      | .transferred target => (session.run.1.enterScene target).1.executedWithin fewer
      | .completed | .suspended _ => []

/-- The statements that one request executes. -/
def executed (session : Session) (request : Request) : List Visit :=
  match session.embark request with
  | .ok walk => walk.session.executedWithin transferLimit
  | .error _ => []

/-- The statements that a sequence of requests executes. -/
def executedAlong (session : Session) : List Request → List Visit
  | [] => []
  | request :: rest => session.executed request ++ (session.respond request).2.executedAlong rest

/-- The commands that a call hands out; a call that fails hands out none. -/
def handedOut (outcome : Except StoryError Batch × Session) : List Command :=
  match outcome.1 with
  | .ok batch => batch.commands
  | .error _ => []

/-- What a call does to the style, and what it shows of it unless it fails. -/
structure Mirrored (style : Style) (executed : List Visit)
    (result : Except StoryError (List Command) × Session) : Prop where
  changed : result.2.state.style = style.behind executed
  shown : ∀ commands, result.1 = .ok commands →
    Command.mirror style commands = result.2.state.style

variable {session : Session}

theorem mirrored_before {style between : Style} {first executed : List Visit}
    {commands : List Command} {result : Except StoryError (List Command) × Session}
    (changed : between = style.behind first) (shown : Command.mirror style commands = between)
    (later : Mirrored between executed result) :
    Mirrored style (first ++ executed) (before commands result) where
  changed := by
    rw [Style.behind_append, ← changed]
    exact later.changed
  shown := by
    intro all answered
    obtain ⟨behind, passed, rfl⟩ := before_ok answered
    rw [Command.mirror_append, shown]
    exact later.shown behind passed

theorem enterScene_style (session : Session) (id : String) (style : Style) :
    (session.enterScene id).1.state.style = session.state.style ∧
      Command.mirror style (session.enterScene id).2 = style := by
  unfold enterScene
  split <;> exact ⟨rfl, rfl⟩

theorem executedWithin_of_ended {allowance : Nat}
    (last : ∀ target, session.run.2.1 = .transferred target → allowance = 0) :
    session.executedWithin allowance = session.machine.executed session.state := by
  cases allowance with
  | zero => rfl
  | succ fewer =>
      rw [executedWithin]
      split
      · rename_i target leaves
        cases last target leaves
      · exact List.append_nil _
      · exact List.append_nil _

theorem mirrored_of_ended {allowance : Nat}
    (last : ∀ target, session.run.2.1 = .transferred target → allowance = 0) :
    Mirrored session.state.style (session.executedWithin allowance) (session.drive allowance) := by
  obtain ⟨changed, shown⟩ := session.machine.run_style session.state
  rw [executedWithin_of_ended last]
  cases ended : session.run.2.1 with
  | completed =>
      rw [drive_completed ended]
      refine ⟨changed, ?_⟩
      rintro commands ⟨⟩
      exact shown
  | suspended count =>
      rw [drive_suspended ended]
      refine ⟨changed, ?_⟩
      rintro commands ⟨⟩
      exact shown
  | transferred target =>
      have spent := last target ended
      subst spent
      rw [drive_limit ended]
      exact ⟨changed, nofun⟩

theorem mirrored_drive (session : Session) (allowance : Nat) :
    Mirrored session.state.style (session.executedWithin allowance) (session.drive allowance) := by
  induction allowance generalizing session with
  | zero => exact mirrored_of_ended fun _ _ => rfl
  | succ fewer ih =>
      by_cases leaves : ∃ target, session.run.2.1 = .transferred target
      · obtain ⟨target, ended⟩ := leaves
        obtain ⟨changed, shown⟩ := session.machine.run_style session.state
        obtain ⟨kept, silent⟩ := session.run.1.enterScene_style target session.run.1.state.style
        have later := ih (session.run.1.enterScene target).1
        rw [kept] at later
        rw [executedWithin, ended, drive_transfer ended]
        refine mirrored_before changed ?_ later
        rw [Command.mirror_append, show Command.mirror _ session.run.2.2 = _ from shown]
        exact silent
      · exact mirrored_of_ended fun target ended => absurd ⟨target, ended⟩ leaves

theorem embark_style {request : Request} {walk : Walk}
    (embarked : session.embark request = .ok walk) :
    walk.session.state.style = session.state.style ∧
      Command.mirror session.state.style walk.shown = session.state.style := by
  obtain ⟨id, rfl⟩ | rfl | ⟨items, index, item, -, -, rfl⟩ := embark_cases embarked
  · obtain ⟨kept, silent⟩ := enterScene_style
      { session with started := true, state := session.state.clearWait } id session.state.style
    refine ⟨kept, ?_⟩
    change Command.mirror _ ([.applyStyle session.state.style] ++ _) = _
    rw [Command.mirror_append]
    exact silent
  · exact ⟨rfl, rfl⟩
  · exact ⟨rfl, rfl⟩

theorem drive_error {allowance : Nat} {error : StoryError}
    (failed : (session.drive allowance).1 = .error error) :
    ∃ target, error = .transferLoop target transferLimit := by
  revert failed
  apply drive_elim (motive := fun _ _ result =>
    result.1 = .error error → ∃ target, error = .transferLoop target transferLimit)
  · intro session ended failed
    cases failed
  · intro session count ended failed
    cases failed
  · intro session target ended failed
    exact ⟨target, (Except.error.inj failed).symm⟩
  · intro session target visited result ended later failed
    exact later (before_error.1 failed)

theorem respond_style (coherent : session.Coherent) (request : Request) :
    (session.respond request).2.state.style =
        session.state.style.behind (session.executed request) ∧
      ((∀ target limit, (session.respond request).1 ≠ .error (.transferLoop target limit)) →
        Command.mirror session.state.style (handedOut (session.respond request)) =
          (session.respond request).2.state.style) := by
  rw [executed]
  cases embarked : session.embark request with
  | error error =>
      rw [respond_of_refused embarked]
      exact ⟨rfl, fun _ => rfl⟩
  | ok walk =>
      obtain ⟨kept, silent⟩ := embark_style embarked
      have driven := walk.session.mirrored_drive transferLimit
      rw [kept] at driven
      have whole := mirrored_before (Style.behind_nil session.state.style).symm silent driven
      rw [respond_of_embark coherent embarked]
      refine ⟨whole.changed, ?_⟩
      intro within
      cases answered : (before walk.shown (walk.session.drive transferLimit)).1 with
      | ok commands =>
          have given : handedOut (batch (before walk.shown (walk.session.drive transferLimit))) =
              commands := by
            rw [handedOut, batch, answered]
            rfl
          rw [given]
          exact whole.shown commands answered
      | error error =>
          obtain ⟨target, rfl⟩ := drive_error (before_error.1 answered)
          exact absurd (batch_error.2 answered) (within target transferLimit)

theorem replay_style {begun : Bool} (reached : Reached session begun) (requests : List Request) :
    (session.replay requests).state.style =
        session.state.style.behind (session.executedAlong requests) ∧
      ((∀ outcome ∈ session.outcomes requests, ∀ target limit,
          outcome.1 ≠ .error (.transferLoop target limit)) →
        Command.mirror session.state.style ((session.outcomes requests).flatMap handedOut) =
          (session.replay requests).state.style) := by
  induction requests generalizing session begun with
  | nil => exact ⟨rfl, fun _ => rfl⟩
  | cons request rest ih =>
      obtain ⟨changed, shown⟩ := respond_style reached.coherent request
      obtain ⟨later, told⟩ := ih (reached_respond reached request)
      rw [replay_cons, executedAlong, Style.behind_append, ← changed]
      refine ⟨later, ?_⟩
      intro within
      obtain ⟨here, behind⟩ := List.forall_mem_cons.1 within
      rw [outcomes, List.flatMap_cons, Command.mirror_append, shown here]
      exact told behind

theorem handedOut_start {id : String}
    (within : ∀ target limit, (session.start id).1 ≠ .error (.transferLoop target limit)) :
    ∃ rest, handedOut (session.start id) = .applyStyle session.state.style :: rest := by
  cases answered : (session.start id).1 with
  | error error =>
      obtain ⟨target, rfl⟩ := start_error answered
      exact absurd answered (within target transferLimit)
  | ok answer =>
      obtain ⟨rest, opens⟩ := start_shown answered
      refine ⟨.clearTransient :: rest, ?_⟩
      rw [handedOut, answered]
      exact opens

/--
After any requests, for any start and whatever requests follow it: the style of the state is the
style before the start with the style changes that were executed since applied in order. If none of
these calls was cut off, the style that they showed last is the style of the state.
-/
theorem lastStyle_replay (program : Program) (earlier : List Request) (id : String)
    (later : List Request) :
    let origin := (new program).replay earlier
    let calls := .start id :: later
    let session := origin.replay calls
    session.state.style =
        ((origin.executedAlong calls).filterMap Visit.change?).foldl Style.apply
          origin.state.style ∧
      ((∀ outcome ∈ origin.outcomes calls, ∀ target limit,
          outcome.1 ≠ .error (.transferLoop target limit)) →
        Command.lastStyle ((origin.outcomes calls).flatMap handedOut) =
          some session.state.style) := by
  intro origin calls session
  have reached := reached_replay program earlier
  obtain ⟨changed, shown⟩ := replay_style reached calls
  refine ⟨changed, ?_⟩
  intro within
  obtain ⟨rest, opens⟩ := handedOut_start (List.forall_mem_cons.1 within).1
  have whole : (origin.outcomes calls).flatMap handedOut =
      .applyStyle origin.state.style ::
        (rest ++ ((origin.respond (.start id)).2.outcomes later).flatMap handedOut) := by
    rw [outcomes, List.flatMap_cons, show handedOut (origin.respond (.start id)) = _ from opens,
      List.cons_append]
  rw [← show _ = session.state.style from shown within, whole, Command.lastStyle_applyStyle]

/-- A red hall with a choice that enlarges the text and leads into a blue room. -/
def studio : Program :=
  .ofScenes [
    ⟨"hall", 1, [.act (.style (.background "red")),
      .choice "in" [.act (.style (.fontSize 20)), .go "room" 5]]⟩,
    ⟨"room", 7, [.act (.style (.background "blue"))]⟩]

theorem lastStyle_replay_studio :
    let calls : List Request :=
      [.start "hall", .tick (some (.choose 7)), .tick none, .tick (some (.choose 0))]
    let final : Style := { Style.initial with background := "blue", fontSize := 20 }
    ((new studio).executedAlong calls).filterMap Visit.change? =
        [.background "red", .fontSize 20, .background "blue"] ∧
      ((new studio).replay calls).state.style = final ∧
      Command.lastStyle (((new studio).outcomes calls).flatMap handedOut) = some final := by
  intro calls final
  have executed : ((new studio).executedAlong calls).filterMap Visit.change? =
      [.background "red", .fontSize 20, .background "blue"] := by
    decide +kernel
  have answers : ((new studio).outcomes calls).map Prod.fst =
      [.ok ⟨[.applyStyle .initial, .clearTransient,
          .applyStyle { Style.initial with background := "red" }, .presentChoices ["in"]],
          .choice 1⟩,
        .error (.invalidChoice 7 1), .ok ⟨[], .choice 1⟩,
        .ok ⟨[.applyStyle { Style.initial with background := "red", fontSize := 20 },
          .clearTransient, .applyStyle final], .nothing⟩] := by
    decide +kernel
  obtain ⟨changed, shown⟩ := lastStyle_replay studio [] "hall"
    [.tick (some (.choose 7)), .tick none, .tick (some (.choose 0))]
  have style : ((new studio).replay calls).state.style = final :=
    changed.trans (congrArg (List.foldl Style.apply Style.initial) executed)
  refine ⟨executed, style, (shown ?_).trans (congrArg some style)⟩
  intro outcome member target limit cut
  have listed : outcome.1 ∈ ((new studio).outcomes calls).map Prod.fst :=
    List.mem_map_of_mem member
  rw [answers, cut] at listed
  simp at listed

end Session

end SceneScript
