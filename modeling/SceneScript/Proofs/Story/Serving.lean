import SceneScript.Proofs.Story.Playing

/-!
# What a host is called with

Whatever the host and the session are, playing calls the host for one command after the other, and
does nothing else to it. So its state behind playing is its state behind a sequence of calls, and
what holds of any sequence of calls holds of playing.
-/

namespace SceneScript

set_option autoImplicit false

namespace Host

variable {σ : Type}

/-- Makes calls in order; gives the answers at the menus and the state behind the last call. -/
def serve (host : Host σ) (state : σ) : List Call → List (Option Nat) × σ
  | [] => ([], state)
  | .show display :: rest => host.serve (host.render display state) rest
  | .menu labels :: rest =>
    let (answer, left) := host.ask labels state
    let (answers, final) := host.serve left rest
    (answer :: answers, final)

theorem serve_append (host : Host σ) (state : σ) (first second : List Call) :
    host.serve state (first ++ second) =
      ((host.serve state first).1 ++ (host.serve (host.serve state first).2 second).1,
        (host.serve (host.serve state first).2 second).2) := by
  induction first generalizing state with
  | nil => rfl
  | cons call rest ih =>
      rcases call with display | labels
      · exact ih _
      · simp only [List.cons_append, serve, ih]

/-- Commands are calls, and the selection is the last answer. -/
theorem dispatch_eq_serve (host : Host σ) (commands : List Command) (state : σ) :
    host.dispatch commands state =
      ((host.serve state (commands.map (Command.call host.resolve))).1.getLast?.getD none,
        (host.serve state (commands.map (Command.call host.resolve))).2) := by
  suffices general : ∀ current : Option Nat × σ, commands.foldl host.perform current =
      ((host.serve current.2 (commands.map (Command.call host.resolve))).1.getLast?.getD current.1,
        (host.serve current.2 (commands.map (Command.call host.resolve))).2) from
    general (none, state)
  induction commands with
  | nil =>
      intro current
      rfl
  | cons command rest ih =>
      intro current
      rw [List.foldl_cons, ih]
      cases command with
      | presentChoices labels =>
          simp only [List.map_cons, Command.call, serve, perform, List.getLast?_cons,
            Option.getD_some]
      | showText content => rfl
      | showImage path => rfl
      | clearTransient => rfl
      | applyStyle style => rfl

end Host

namespace Session

variable {σ : Type}

def calls (host : Host σ) (result : Except StoryError Batch × Session) (chosen : List Nat) :
    List Call :=
  (displayed result chosen).map (Command.call host.resolve)

theorem calls_ok (host : Host σ) (batch : Batch) (session : Session) :
    calls host (.ok batch, session) [] = batch.commands.map (Command.call host.resolve) := by
  rw [calls, displayed_ok]

/-- Playing on is some selections, with the calls for what they show. -/
theorem exists_calls (host : Host σ) (state : σ) (result : Except StoryError Batch × Session) :
    ∃ chosen, (playOn host state result).host = (host.serve state (calls host result chosen)).2 ∧
      (playOn host state result).session = result.2.replay (chosen.map Request.select) := by
  -- Every round that is followed by another one costs the host some of its patience.
  induction rounds : host.patience state using Nat.strongRecOn generalizing state result with
  | ind rounds ih =>
      obtain ⟨outcome, session⟩ := result
      cases outcome with
      | error error => exact ⟨[], rfl, rfl⟩
      | ok batch =>
          have served := host.dispatch_eq_serve batch.commands state
          cases waiting : batch.waiting with
          | nothing =>
              rw [playOn_calm waiting]
              refine ⟨[], ?_, rfl⟩
              rw [calls_ok, served]
          | choice count =>
              rcases answered : host.dispatch batch.commands state with ⟨_ | index, left⟩
              · rw [playOn_abandoned waiting answered]
                refine ⟨[], ?_, rfl⟩
                rw [calls_ok]
                exact congrArg Prod.snd (answered.symm.trans served)
              · have fewer := host.patience_dispatch_lt answered
                rw [rounds] at fewer
                obtain ⟨chosen, hosted, moved⟩ :=
                  ih _ fewer left (session.tick (some (.choose index))) rfl
                rw [playOn_selected waiting answered]
                refine ⟨index :: chosen, ?_, moved⟩
                rw [calls, displayed_cons, List.map_append, host.serve_append,
                  ← congrArg Prod.snd (answered.symm.trans served)]
                exact hosted

theorem exists_calls_behind (host : Host σ) (state : σ) (batch : Batch) (session : Session) :
    ∃ calls, (playOn host state (.ok batch, session)).host =
      (host.serve (host.dispatch batch.commands state).2 calls).2 := by
  cases waiting : batch.waiting with
  | nothing =>
      rw [playOn_calm waiting]
      exact ⟨[], rfl⟩
  | choice count =>
      rcases answered : host.dispatch batch.commands state with ⟨_ | index, left⟩
      · rw [playOn_abandoned waiting answered]
        exact ⟨[], rfl⟩
      · rw [playOn_selected waiting answered]
        obtain ⟨chosen, ends, -⟩ := exists_calls host left (session.tick (some (.choose index)))
        exact ⟨_, ends⟩

end Session

end SceneScript
