import Mathlib.Data.List.Basic
import SceneScript.Proofs.Story.Batches

/-!
# Nothing is left of an abandoned scene

Entering a scene overwrites the machine and the current scene. What a session did before can reach
into the new scene only through its game and its style, so two sessions that agree in these start a
scene alike. A `go` enters its target just as a start does: what a call shows behind it, and the
session that the call leaves, are those of a start at that point. The calls differ in how many
further `go`s they may follow, which does not matter as long as none of them is cut off.
-/

namespace SceneScript.Session

set_option autoImplicit false

/-- A `go` that a call follows: what was shown before it, game and style then, and its target. -/
structure Jump where
  shown : List Command
  game : GameState
  style : Style
  target : String
deriving DecidableEq

namespace Jump

def after (shown : List Command) (jump : Jump) : Jump :=
  { jump with shown := shown ++ jump.shown }

/--
Driving shows behind the jump what any start of its target shows behind the style, and leaves the
same session, if the start finds game and style as the jump does.
-/
def Restarts (jump : Jump) (program : Program)
    (result : Except StoryError (List Command) × Session) : Prop :=
  ∃ behind, result.1 = .ok (jump.shown ++ behind) ∧
    ∀ other : Session, other.program = program → other.state.game = jump.game →
      other.state.style = jump.style →
      other.start jump.target = batch (.ok (.applyStyle jump.style :: behind), result.2)

theorem restarts_after {jump : Jump} {program : Program}
    {result : Except StoryError (List Command) × Session} (restarts : jump.Restarts program result)
    (shown : List Command) : (jump.after shown).Restarts program (before shown result) := by
  obtain ⟨outcome, session⟩ := result
  obtain ⟨behind, answered, same⟩ := restarts
  refine ⟨behind, ?_, same⟩
  cases answered
  exact congrArg Except.ok (List.append_assoc _ _ _).symm

end Jump

/-- The jumps of a session that is driven. -/
def jumpsWithin (session : Session) : Nat → List Jump
  | 0 => []
  | fewer + 1 =>
    match session.run.2.1 with
    | .transferred target =>
      let (entered, shown) := session.run.1.enterScene target
      ⟨session.run.2.2, session.run.1.state.game, session.run.1.state.style, target⟩ ::
        (entered.jumpsWithin fewer).map (Jump.after (session.run.2.2 ++ shown))
    | .completed | .suspended _ => []

/-- The jumps of one request. -/
def jumps (session : Session) : Request → List Jump
  | .start id =>
    ((session.opened id).jumpsWithin transferLimit).map (Jump.after (session.opening id))
  | .tick input =>
    if session.started then
      match input.elim (.ok session) session.handle with
      | .error _ => []
      | .ok handled =>
        if handled.state.waiting.isWaiting then [] else handled.jumpsWithin transferLimit
    else
      []

def Request.named : Request → List String
  | .start id => [id]
  | .tick _ => []

theorem targets_after (shown : List Command) (jumps : List Jump) :
    (jumps.map (Jump.after shown)).map Jump.target = jumps.map Jump.target := by
  rw [List.map_map]
  rfl

theorem targets_jumpsWithin (session : Session) (allowance : Nat) :
    (session.jumpsWithin allowance).map Jump.target = session.transfers allowance := by
  induction allowance generalizing session with
  | zero => rfl
  | succ fewer ih =>
      rw [jumpsWithin, transfers]
      cases session.run.2.1 with
      | completed | suspended count => rfl
      | transferred target =>
          dsimp only
          rw [List.map_cons, targets_after, ih]

theorem entered_eq_targets (session : Session) (request : Request) :
    session.entered request = request.named ++ (session.jumps request).map Jump.target := by
  cases request with
  | start id =>
      rw [entered, jumps, targets_after, targets_jumpsWithin]
      rfl
  | tick input =>
      rw [entered, jumps, Request.named, List.nil_append]
      cases session.started with
      | false => rfl
      | true =>
          cases input.elim (.ok session) session.handle with
          | error error => rfl
          | ok handled =>
              dsimp only [if_true]
              cases handled.state.waiting with
              | nothing => exact (targets_jumpsWithin handled transferLimit).symm
              | choice count => rfl

theorem enterScene_congr {one two : Session} (program : one.program = two.program)
    (game : one.state.game = two.state.game) (style : one.state.style = two.state.style)
    (waiting : one.state.waiting = two.state.waiting) (started : one.started = two.started)
    (id : String) : one.enterScene id = two.enterScene id := by
  simp only [enterScene, program, game, style, waiting, started]

theorem start_congr {one two : Session} (program : one.program = two.program)
    (game : one.state.game = two.state.game) (style : one.state.style = two.state.style)
    (id : String) : one.start id = two.start id := by
  have entered : enterScene { one with started := true, state := one.state.clearWait } id =
      enterScene { two with started := true, state := two.state.clearWait } id := by
    apply enterScene_congr
    · exact program
    · exact game
    · exact style
    · rfl
    · rfl
  simp only [start, entered, style]

theorem outcomes_start {one two : Session} {id : String} (same : one.start id = two.start id)
    (requests : List Request) :
    one.outcomes (.start id :: requests) = two.outcomes (.start id :: requests) := by
  rw [outcomes, outcomes, respond, same, respond]

/-- A call that is not cut off gives the same if it may follow more `go`s. -/
theorem drive_of_le {session : Session} {fewer allowance : Nat} {commands : List Command}
    (answered : (session.drive fewer).1 = .ok commands) (more : fewer ≤ allowance) :
    session.drive allowance = session.drive fewer := by
  induction fewer generalizing session allowance commands with
  | zero =>
      cases ended : session.run.2.1 with
      | completed => rw [drive_completed ended, drive_completed ended]
      | suspended count => rw [drive_suspended ended, drive_suspended ended]
      | transferred target =>
          rw [drive_limit ended] at answered
          cases answered
  | succ fewer ih =>
      cases ended : session.run.2.1 with
      | completed => rw [drive_completed ended, drive_completed ended]
      | suspended count => rw [drive_suspended ended, drive_suspended ended]
      | transferred target =>
          cases allowance with
          | zero => exact absurd more (Nat.not_succ_le_zero fewer)
          | succ allowance =>
              rw [drive_transfer ended] at answered ⊢
              obtain ⟨behind, passed, -⟩ := before_ok answered
              rw [drive_transfer ended, ih passed (Nat.le_of_succ_le_succ more)]

/-- Where driving meets a `go`, it goes on as a start of the target does. -/
theorem start_of_transfer {session : Session} (begun : session.started = true)
    (calm : session.state.waiting = .nothing) {fewer : Nat} (bound : fewer ≤ transferLimit)
    {target : String} {behind : List Command}
    (answered : ((session.run.1.enterScene target).1.drive fewer).1 = .ok behind)
    {other : Session} (program : other.program = session.program)
    (game : other.state.game = session.run.1.state.game)
    (style : other.state.style = session.run.1.state.style) :
    other.start target =
      batch (.ok (.applyStyle session.run.1.state.style ::
        ((session.run.1.enterScene target).2 ++ behind)),
        ((session.run.1.enterScene target).1.drive fewer).2) := by
  obtain ⟨sameProgram, sameStarted, -, sameWaiting⟩ := session.run_keeps
  have entered :
      enterScene { other with started := true, state := other.state.clearWait } target =
        session.run.1.enterScene target := by
    apply enterScene_congr
    · exact program.trans sameProgram.symm
    · exact game
    · exact style
    · exact (sameWaiting.trans calm).symm
    · exact (sameStarted.trans begun).symm
  simp only [start, entered, style, drive_of_le answered bound, before, answered]
  rfl

-- The induction is on the `go`s that may still be followed. It carries that the driven session was
-- started and waits for nothing: a start makes both true, and a `go` leaves them as they are.
theorem restarts_of_mem_jumpsWithin {session : Session} (begun : session.started = true)
    (calm : session.state.waiting = .nothing) {allowance : Nat} (bound : allowance ≤ transferLimit)
    {commands : List Command} (answered : (session.drive allowance).1 = .ok commands) {jump : Jump}
    (member : jump ∈ session.jumpsWithin allowance) :
    jump.Restarts session.program (session.drive allowance) := by
  induction allowance generalizing session commands jump with
  | zero => cases member
  | succ fewer ih =>
      have fits : fewer ≤ transferLimit := Nat.le_of_succ_le bound
      rw [jumpsWithin] at member
      cases ended : session.run.2.1 with
      | completed | suspended count =>
          rw [ended] at member
          cases member
      | transferred target =>
          rw [ended] at member
          rw [drive_transfer ended] at answered ⊢
          obtain ⟨behind, passed, -⟩ := before_ok answered
          cases List.mem_cons.1 member with
          | inl here =>
              rw [here]
              refine ⟨(session.run.1.enterScene target).2 ++ behind, ?_, ?_⟩
              · rw [before, passed, ← List.append_assoc]
                rfl
              · intro other program game style
                exact start_of_transfer begun calm fits passed program game style
          | inr later =>
              obtain ⟨next, inside, rfl⟩ := List.mem_map.1 later
              obtain ⟨sameProgram, sameStarted, -, sameWaiting⟩ := session.run_keeps
              obtain ⟨-, state, program, started⟩ := session.run.1.enterScene_fresh target
              apply Jump.restarts_after
              rw [← sameProgram, ← program]
              apply ih (started.trans (sameStarted.trans begun)) _ fits passed inside
              rw [state]
              exact sameWaiting.trans calm

theorem handle_keeps {session handled : Session} {input : Option Input}
    (taken : input.elim (.ok session) session.handle = .ok handled) :
    handled.program = session.program ∧ handled.started = session.started := by
  obtain rfl | ⟨items, index, item, -, -, rfl⟩ := handle_cases taken
  · exact ⟨rfl, rfl⟩
  · exact ⟨rfl, rfl⟩

theorem restarts_of_mem_jumps {session : Session} {request : Request} {answer : Batch}
    (answered : (session.respond request).1 = .ok answer) {jump : Jump}
    (member : jump ∈ session.jumps request) :
    ∃ result, session.respond request = batch result ∧ jump.Restarts session.program result := by
  cases request with
  | start id =>
      obtain ⟨next, inside, rfl⟩ := List.mem_map.1 member
      obtain ⟨-, state, program, started⟩ :=
        enterScene_fresh { session with started := true, state := session.state.clearWait } id
      rw [respond, start_opening] at answered
      obtain ⟨behind, passed, -⟩ := before_ok (batch_ok answered).1
      refine ⟨_, session.start_opening id, ?_⟩
      apply Jump.restarts_after
      rw [← show (session.opened id).program = session.program from program]
      exact restarts_of_mem_jumpsWithin started (congrArg State.waiting state) (Nat.le_refl _)
        passed inside
  | tick input =>
      simp only [respond, tick] at answered ⊢
      rw [jumps] at member
      cases begun : session.started with
      | false =>
          rw [begun] at member
          cases member
      | true =>
          rw [begun] at member answered
          simp only [if_true] at member answered ⊢
          cases taken : input.elim (.ok session) session.handle with
          | error error =>
              rw [taken] at member
              cases member
          | ok handled =>
              rw [taken] at member answered
              dsimp only at member answered ⊢
              obtain ⟨program, started⟩ := handle_keeps taken
              cases waits : handled.state.waiting with
              | choice count =>
                  rw [waits] at member
                  cases member
              | nothing =>
                  rw [waits] at member answered
                  refine ⟨_, rfl, ?_⟩
                  rw [← program]
                  exact restarts_of_mem_jumpsWithin (started.trans begun) waits (Nat.le_refl _)
                    (batch_ok answered).1 member

/--
Two sessions of one program that agree in game and style, whatever led to them, start a scene alike:
the answers are equal and so are the sessions behind them, and all that follows is. A request enters
the scene that it names and then the targets of its jumps. Whatever it shows behind a jump, what it
waits for at the end and the session that it leaves are those of a start of the target, the style in
front apart, in any session of the program that has the game and the style of the jump.
-/
theorem start_forgets :
    (∀ one two : Session, one.program = two.program → one.state.game = two.state.game →
      one.state.style = two.state.style → ∀ (id : String) (requests : List Request),
      one.start id = two.start id ∧
        one.outcomes (.start id :: requests) = two.outcomes (.start id :: requests)) ∧
    ∀ (session : Session) (request : Request),
      session.entered request = request.named ++ (session.jumps request).map Jump.target ∧
      ∀ answer, (session.respond request).1 = .ok answer → ∀ jump ∈ session.jumps request,
        ∀ other : Session, other.program = session.program → other.state.game = jump.game →
          other.state.style = jump.style →
          ∃ behind, answer.commands = jump.shown ++ behind ∧
            other.start jump.target =
              (.ok ⟨.applyStyle jump.style :: behind, answer.waiting⟩,
                (session.respond request).2) := by
  refine ⟨?_, ?_⟩
  · intro one two program game style id requests
    have same := start_congr program game style id
    exact ⟨same, outcomes_start same requests⟩
  · intro session request
    refine ⟨session.entered_eq_targets request, ?_⟩
    intro answer answered jump member other program game style
    obtain ⟨result, given, behind, shown, same⟩ := restarts_of_mem_jumps answered member
    rw [given] at answered ⊢
    obtain ⟨commands, waiting⟩ := batch_ok answered
    rw [shown] at commands
    refine ⟨behind, (Except.ok.inj commands).symm, ?_⟩
    rw [same other program game style, waiting]
    rfl

theorem start_forgets_gate :
    let session := (new gate).replay [.start "gate"]
    let request : Request := .tick (some (.choose 1))
    let jump : Jump := ⟨[.clearTransient, .showText "It creaks."], .empty, .initial, "yard"⟩
    let menu : List Command := [.clearTransient, .presentChoices ["in", "back"]]
    session.start "yard" = (new gate).start "yard" ∧ jump ∈ session.jumps request ∧
      (session.respond request).1 = .ok ⟨jump.shown ++ menu, .choice 2⟩ ∧
      (new gate).start "yard" =
        (.ok ⟨.applyStyle .initial :: menu, .choice 2⟩, (session.respond request).2) := by
  intro session request jump menu
  have member : jump ∈ session.jumps request := by
    decide +kernel
  have answered : (session.respond request).1 = .ok ⟨jump.shown ++ menu, .choice 2⟩ := by
    decide +kernel
  have kept : session.program = gate :=
    (driven_opened (new gate) "gate").program.trans (enterScene_fresh _ "gate").2.2.1
  obtain ⟨alike, later⟩ := start_forgets
  obtain ⟨same, -⟩ :=
    alike session (new gate) kept (by decide +kernel) (by decide +kernel) "yard" []
  obtain ⟨-, restarts⟩ := later session request
  obtain ⟨behind, shown, restarted⟩ :=
    restarts _ answered jump member (new gate) kept.symm rfl rfl
  rw [← List.append_cancel_left shown] at restarted
  exact ⟨same, member, answered, restarted⟩

end SceneScript.Session
