import SceneScript.Proofs.Story.Batches
import SceneScript.Story.Host

/-!
# Playing round by round

Playing goes in rounds: a call gives a batch, the host shows it, and what it selects at the menu is
the next call. Whatever the host is, a batch has a menu exactly if the story waits for a choice, the
menu is the pending one, and it is the last thing that the host is handed. So a round ends playing in
one of four ways, or it is followed by another one. A fact about playing is proved once for each.
-/

namespace SceneScript

set_option autoImplicit false

namespace Session

variable {σ : Type}

def playOn (host : Host σ) (state : σ) : Except StoryError Batch × Session → Played σ
  | (.error error, session) => ⟨.error error, state, session⟩
  | (.ok batch, session) => proceed host state session batch

theorem play_eq_playOn (session : Session) (id : String) (host : Host σ) (state : σ) :
    session.play id host state = playOn host state (session.start id) := by
  unfold play playOn
  rcases session.start id with ⟨_ | _, _⟩ <;> rfl

/-- A batch that the host may rely on, or the only failure of a call that it can meet. -/
structure Offers (result : Except StoryError Batch × Session) : Prop where
  reached : Reached result.2 true
  shown : ∀ batch, result.1 = .ok batch → ∃ front,
    (∀ command ∈ front, command.isMenu = false) ∧
      batch.commands = front ++ result.2.machine.offer ∧
      batch.waiting = result.2.state.waiting
  failure : ∀ error, result.1 = .error error → ∃ target, error = .transferLoop target transferLimit

theorem offers_start {session : Session} {begun : Bool} (reached : Reached session begun)
    (id : String) : Offers (session.start id) := by
  refine ⟨session.reached_start id, ?_, fun error failed => start_error failed⟩
  intro batch answered
  have taken : session.takes (.start id) = true := rfl
  obtain ⟨front, silent, -, commands, waiting⟩ := respond_shown reached.coherent taken answered
  exact ⟨front, silent, commands, waiting⟩

/-- A batch that ends with the menu of the session behind it. -/
structure Asks (batch : Batch) (session : Session) (items : List MenuItem) : Prop where
  offers : Offers (.ok batch, session)
  shown : ∃ front, (∀ command ∈ front, command.isMenu = false) ∧
    batch.commands = front ++ [.presentChoices (items.map MenuItem.label)]
  waiting : batch.waiting = .choice items.length
  waits : session.state.waiting = .choice items.length
  pending : session.machine.menu = some items

theorem exists_asks {batch : Batch} {session : Session} (offers : Offers (.ok batch, session))
    {count : Nat} (waits : batch.waiting = .choice count) : ∃ items, session.Asks batch items := by
  obtain ⟨front, silent, commands, waiting⟩ := offers.shown batch rfl
  have waiting : batch.waiting = session.state.waiting := waiting
  obtain ⟨items, pending, same⟩ :=
    ((waiting_iff_menu offers.reached.coherent).1 count).1 (waiting.symm.trans waits)
  subst same
  refine ⟨items, offers, ⟨front, silent, ?_⟩, waits, waiting.symm.trans waits, pending⟩
  rw [commands, Machine.offer, pending]

theorem silent_of_calm {batch : Batch} {session : Session} (offers : Offers (.ok batch, session))
    (calm : batch.waiting = .nothing) : ∀ command ∈ batch.commands, command.isMenu = false := by
  obtain ⟨front, silent, commands, waiting⟩ := offers.shown batch rfl
  have closed : session.machine.menu = none :=
    (idle_of_calm offers.reached.coherent (waiting.symm.trans calm)).2
  rw [commands, Machine.offer, closed, List.append_nil]
  exact silent

theorem offers_select {batch : Batch} {session : Session} {items : List MenuItem}
    (asks : session.Asks batch items) {index : Nat} (inside : index < items.length) :
    Offers (session.tick (some (.choose index))) := by
  have reached : Reached session true := asks.offers.reached
  have taken : session.takes (.tick (some (.choose index))) = true := by
    simp [takes, reached.started, asks.waits, inside]
  refine ⟨reached_tick reached _, ?_, ?_⟩
  · intro next answered
    obtain ⟨front, silent, -, commands, waiting⟩ := respond_shown reached.coherent taken answered
    exact ⟨front, silent, commands, waiting⟩
  · intro error failed
    rw [tick_select reached.started asks.waits asks.pending (List.getElem?_eq_getElem inside)]
      at failed
    exact (session.driven_resumed _).failure error (batch_error.1 failed)

end Session

namespace Host

variable {σ : Type}

theorem dispatch_menu (host : Host σ) (front : List Command) (labels : List String) (state : σ) :
    host.dispatch (front ++ [.presentChoices labels]) state =
      host.ask (labels.map host.resolve) (host.dispatch front state).2 := by
  rw [dispatch, List.foldl_append]
  rfl

theorem patience_dispatch_lt (host : Host σ) {commands : List Command} {state left : σ}
    {index : Nat} (answered : host.dispatch commands state = (some index, left)) :
    host.patience left < host.patience state := by
  have bound := host.slack_dispatch_le commands state
  rw [answered] at bound
  simp only [slack, Option.isSome_some, if_true] at bound
  omega

end Host

namespace Session

variable {σ : Type} {host : Host σ} {state left : σ} {batch : Batch} {session : Session}

theorem playOn_calm (calm : batch.waiting = .nothing) :
    playOn host state (.ok batch, session) =
      ⟨.ok .finished, (host.dispatch batch.commands state).2, session⟩ := by
  rw [playOn, proceed]
  simp only [calm]

theorem playOn_abandoned {count : Nat} (waiting : batch.waiting = .choice count)
    (answered : host.dispatch batch.commands state = (none, left)) :
    playOn host state (.ok batch, session) = ⟨.ok .abandoned, left, session⟩ := by
  rw [playOn, proceed]
  split
  rename_i selection shown same
  cases answered.symm.trans same
  simp only [waiting]

theorem playOn_selected {count index : Nat} (waiting : batch.waiting = .choice count)
    (answered : host.dispatch batch.commands state = (some index, left)) :
    playOn host state (.ok batch, session) =
      playOn host left (session.tick (some (.choose index))) := by
  rw [playOn, proceed]
  split
  rename_i selection shown same
  cases answered.symm.trans same
  simp only [waiting]
  rcases session.tick (some (.choose index)) with ⟨_ | _, _⟩ <;> rfl

theorem playOn_elim (host : Host σ)
    {motive : σ → Except StoryError Batch × Session → Played σ → Prop}
    (failed : ∀ state target session,
      motive state (.error (.transferLoop target transferLimit), session)
        ⟨.error (.transferLoop target transferLimit), state, session⟩)
    (finished : ∀ state batch session, Offers (.ok batch, session) → batch.waiting = .nothing →
      motive state (.ok batch, session)
        ⟨.ok .finished, (host.dispatch batch.commands state).2, session⟩)
    (abandoned : ∀ state left batch session items, session.Asks batch items →
      host.dispatch batch.commands state = (none, left) →
      motive state (.ok batch, session) ⟨.ok .abandoned, left, session⟩)
    (refused : ∀ state left batch session items index, session.Asks batch items →
      host.dispatch batch.commands state = (some index, left) → items.length ≤ index →
      motive state (.ok batch, session)
        ⟨.error (.invalidChoice index items.length), left, session⟩)
    (selected : ∀ state left batch session items index played, session.Asks batch items →
      host.dispatch batch.commands state = (some index, left) → index < items.length →
      motive left (session.tick (some (.choose index))) played →
      motive state (.ok batch, session) played)
    (state : σ) {result : Except StoryError Batch × Session} (offers : Offers result) :
    motive state result (playOn host state result) := by
  -- Every round that is followed by another one costs the host some of its patience.
  induction rounds : host.patience state using Nat.strongRecOn generalizing state result with
  | ind rounds ih =>
      obtain ⟨outcome, session⟩ := result
      cases outcome with
      | error error =>
          obtain ⟨target, rfl⟩ := offers.failure error rfl
          exact failed state target session
      | ok batch =>
          cases waiting : batch.waiting with
          | nothing =>
              rw [playOn_calm waiting]
              exact finished state batch session offers waiting
          | choice count =>
              obtain ⟨items, asks⟩ := exists_asks offers waiting
              rcases answered : host.dispatch batch.commands state with ⟨_ | index, left⟩
              · rw [playOn_abandoned waiting answered]
                exact abandoned state left batch session items asks answered
              · rw [playOn_selected waiting answered]
                by_cases inside : index < items.length
                · apply selected state left batch session items index _ asks answered inside
                  have fewer := host.patience_dispatch_lt answered
                  rw [rounds] at fewer
                  exact ih _ fewer left (offers_select asks inside) rfl
                · have outside := Nat.not_lt.1 inside
                  rw [tick_invalid asks.offers.reached.started asks.waits outside]
                  exact refused state left batch session items index asks answered outside

end Session

end SceneScript
