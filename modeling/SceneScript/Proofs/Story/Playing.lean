import SceneScript.Proofs.Story.Rounds
import SceneScript.Story.Recorder

/-!
# Playing with a list of answers

A recorder writes down every call that it gets and answers menus from a list. Playing with it is the
plain exchange of calls and batches: a start, and a tick for each answer that selects something. The
log has one entry for each command of the batches, each menu takes one answer from the list, and how
playing ends is decided by the last batch and by the answers that the menus got.
-/

namespace SceneScript

set_option autoImplicit false

namespace Command

def menus (commands : List Command) : List (List String) :=
  commands.filterMap fun
    | presentChoices labels => some labels
    | _ => none

@[simp] theorem menus_nil : menus [] = [] :=
  rfl

theorem menus_append (first second : List Command) :
    menus (first ++ second) = menus first ++ menus second :=
  List.filterMap_append

theorem menus_of_silent {commands : List Command}
    (silent : ∀ command ∈ commands, command.isMenu = false) : menus commands = [] := by
  apply List.filterMap_eq_nil_iff.2
  intro command member
  cases command with
  | presentChoices labels => cases silent _ member
  | _ => rfl

/-- The call that hands a command to a host. Texts and labels are resolved, and nothing else is. -/
def call (resolve : String → String) : Command → Call
  | showText content => .show (.text (resolve content))
  | showImage path => .show (.image path)
  | clearTransient => .show .clear
  | applyStyle style => .show (.style style)
  | presentChoices labels => .menu (labels.map resolve)

end Command

theorem Session.Asks.menus {batch : Batch} {session : Session} {items : List MenuItem}
    (asks : session.Asks batch items) :
    Command.menus batch.commands = [items.map MenuItem.label] := by
  obtain ⟨front, silent, commands⟩ := asks.shown
  rw [commands, Command.menus_append, Command.menus_of_silent silent]
  rfl

namespace Recorder

variable {resolve : String → String}

/-- The recorder behind commands: a call for each of them, and an answer less for each menu. -/
def hear (recorder : Recorder) (resolve : String → String) (commands : List Command) :
    Recorder where
  log := recorder.log ++ (commands.map (Command.call resolve)).toArray
  answers := recorder.answers.drop (Command.menus commands).length

theorem hear_nil (recorder : Recorder) : recorder.hear resolve [] = recorder := by
  simp [hear]

theorem hear_append (recorder : Recorder) (first second : List Command) :
    recorder.hear resolve (first ++ second) =
      (recorder.hear resolve first).hear resolve second := by
  simp [hear, Command.menus_append, List.drop_drop]

theorem perform_heard (current : Option Nat × Recorder) (command : Command) :
    ((host resolve).perform current command).2 = current.2.hear resolve [command] := by
  obtain ⟨selection, log, answers⟩ := current
  cases command with
  | presentChoices labels =>
      cases answers <;> simp [Host.perform, host, ask, hear, Command.call, Command.menus]
  | showText content => simp [Host.perform, host, render, hear, Command.call, Command.menus]
  | showImage path => simp [Host.perform, host, render, hear, Command.call, Command.menus]
  | clearTransient => simp [Host.perform, host, render, hear, Command.call, Command.menus]
  | applyStyle style => simp [Host.perform, host, render, hear, Command.call, Command.menus]

theorem dispatch_heard (commands : List Command) (recorder : Recorder) :
    ((host resolve).dispatch commands recorder).2 = recorder.hear resolve commands := by
  suffices general : ∀ current : Option Nat × Recorder,
      (commands.foldl (host resolve).perform current).2 = current.2.hear resolve commands from
    general (none, recorder)
  induction commands with
  | nil =>
      intro current
      exact (hear_nil current.2).symm
  | cons command rest ih =>
      intro current
      rw [List.foldl_cons, ih, perform_heard, ← hear_append]
      rfl

theorem ask_fst (labels : List String) (recorder : Recorder) :
    (recorder.ask labels).1 = recorder.answers.head?.join := by
  obtain ⟨log, answers⟩ := recorder
  cases answers <;> rfl

theorem hear_menu {batch : Batch} {session : Session} {items : List MenuItem}
    (asks : session.Asks batch items) (recorder : Recorder) :
    recorder.hear resolve batch.commands =
      ⟨recorder.log ++ (batch.commands.map (Command.call resolve)).toArray,
        recorder.answers.tail⟩ := by
  rw [hear, asks.menus, List.length_singleton, List.drop_one]

theorem dispatch_menu {batch : Batch} {session : Session} {items : List MenuItem}
    (asks : session.Asks batch items) (recorder : Recorder) :
    (host resolve).dispatch batch.commands recorder =
      (recorder.answers.head?.join, recorder.hear resolve batch.commands) := by
  obtain ⟨front, silent, commands⟩ := asks.shown
  have kept : (recorder.hear resolve front).answers = recorder.answers := by
    rw [hear, Command.menus_of_silent silent, List.length_nil, List.drop_zero]
  refine Prod.ext ?_ (dispatch_heard _ _)
  rw [commands, Host.dispatch_menu, dispatch_heard, ← kept]
  exact ask_fst _ _

theorem exists_rest {batch : Batch} {session : Session} {items : List MenuItem}
    (asks : session.Asks batch items) {recorder left : Recorder} {index : Nat}
    (answered : (host resolve).dispatch batch.commands recorder = (some index, left)) :
    ∃ log rest, recorder = ⟨log, some index :: rest⟩ ∧
      left = hear ⟨log, some index :: rest⟩ resolve batch.commands := by
  rw [dispatch_menu asks] at answered
  obtain ⟨first, behind⟩ := Prod.mk.inj answered
  obtain ⟨log, answers⟩ := recorder
  cases answers with
  | nil => cases first
  | cons answer rest =>
      have same : answer = some index := first
      subst same
      exact ⟨log, rest, rfl, behind.symm⟩

end Recorder

namespace Session

def Request.select (index : Nat) : Request :=
  .tick (some (.choose index))

/-- The batches that a call and the selections behind it give. -/
def batches (result : Except StoryError Batch × Session) (chosen : List Nat) : List Batch :=
  (result :: result.2.outcomes (chosen.map Request.select)).filterMap fun call => call.1.toOption

@[simp] theorem batches_error (error : StoryError) (session : Session) :
    batches (.error error, session) [] = [] :=
  rfl

@[simp] theorem batches_ok (batch : Batch) (session : Session) :
    batches (.ok batch, session) [] = [batch] :=
  rfl

@[simp] theorem batches_cons (batch : Batch) (session : Session) (index : Nat) (chosen : List Nat) :
    batches (.ok batch, session) (index :: chosen) =
      batch :: batches (session.tick (some (.choose index))) chosen :=
  rfl

/--
A menu with `count` items got `answer`, which is none if the player gave up or no answer was left:
the menus take the answers of the list in turn.
-/
def Answered (menus : List (List String)) (answers : List (Option Nat)) (answer : Option Nat)
    (count : Nat) : Prop :=
  ∃ (position : Nat) (labels : List String), menus[position]? = some labels ∧
    labels.length = count ∧ answers[position]?.join = answer

@[simp] theorem answered_nil {answers : List (Option Nat)} {answer : Option Nat} {count : Nat} :
    ¬ Answered [] answers answer count := by
  rintro ⟨position, labels, present, -⟩
  cases present

@[simp] theorem answered_cons {labels : List String} {later : List (List String)}
    {answers : List (Option Nat)} {answer : Option Nat} {count : Nat} :
    Answered (labels :: later) answers answer count ↔
      labels.length = count ∧ answers.head?.join = answer ∨
        Answered later answers.tail answer count := by
  constructor
  · rintro ⟨position, found, present, size, given⟩
    cases position with
    | zero =>
        cases present
        rw [← List.head?_eq_getElem?] at given
        exact .inl ⟨size, given⟩
    | succ position =>
        refine .inr ⟨position, found, present, size, ?_⟩
        rw [List.getElem?_tail]
        exact given
  · rintro (⟨size, given⟩ | ⟨position, found, present, size, given⟩)
    · refine ⟨0, labels, rfl, size, ?_⟩
      rw [← List.head?_eq_getElem?]
      exact given
    · refine ⟨position + 1, found, present, size, ?_⟩
      rw [List.getElem?_tail] at given
      exact given

/-- The session waits at a menu, and this menu is the last thing that was shown. -/
def Awaits (session : Session) (commands : List Command) : Prop :=
  ∃ items, session.machine.menu = some items ∧ session.state.waiting = .choice items.length ∧
    commands.getLast? = some (.presentChoices (items.map MenuItem.label))

theorem awaits_of_asks {batch : Batch} {session : Session} {items : List MenuItem}
    (asks : session.Asks batch items) : session.Awaits batch.commands := by
  obtain ⟨front, -, commands⟩ := asks.shown
  refine ⟨items, asks.pending, asks.waits, ?_⟩
  rw [commands, List.getLast?_concat]

theorem awaits_append {session : Session} {commands : List Command}
    (awaits : session.Awaits commands) (front : List Command) :
    session.Awaits (front ++ commands) := by
  obtain ⟨items, pending, waits, last⟩ := awaits
  refine ⟨items, pending, waits, ?_⟩
  rw [List.getLast?_append, last]
  rfl

/-- All that the batches of a call and of the selections behind it show. -/
def displayed (result : Except StoryError Batch × Session) (chosen : List Nat) : List Command :=
  (batches result chosen).flatMap Batch.commands

@[simp] theorem displayed_error (error : StoryError) (session : Session) :
    displayed (.error error, session) [] = [] :=
  rfl

@[simp] theorem displayed_ok (batch : Batch) (session : Session) :
    displayed (.ok batch, session) [] = batch.commands := by
  rw [displayed, batches_ok, List.flatMap_singleton]

@[simp] theorem displayed_cons (batch : Batch) (session : Session) (index : Nat) (chosen : List Nat) :
    displayed (.ok batch, session) (index :: chosen) =
      batch.commands ++ displayed (session.tick (some (.choose index))) chosen :=
  rfl

/-- What playing on with the result of a call comes to, given the selections that it makes. -/
structure Faithful (resolve : String → String) (recorder : Recorder)
    (result : Except StoryError Batch × Session) (played : Played Recorder) (chosen : List Nat) :
    Prop where
  given : chosen.map some <+: recorder.answers
  session : played.session = result.2.replay (chosen.map Request.select)
  heard : played.host = recorder.hear resolve (displayed result chosen)
  finished : played.outcome = .ok .finished ↔
    (batches result chosen).getLast?.map Batch.waiting = some .nothing
  ended : played.outcome = .ok .finished → played.session.isFinished = true
  abandoned : played.outcome = .ok .abandoned ↔
    ∃ count, Answered (Command.menus (displayed result chosen)) recorder.answers none count
  refused : ∀ index count, played.outcome = .error (.invalidChoice index count) ↔
    Answered (Command.menus (displayed result chosen)) recorder.answers (some index) count ∧
      count ≤ index
  awaits : played.outcome = .ok .abandoned ∨
      (∃ index count, played.outcome = .error (.invalidChoice index count)) →
    played.session.Awaits (displayed result chosen)
  resumes : played.outcome = .ok .abandoned → ∀ index rest,
    playOn (Recorder.host resolve) ⟨recorder.log, chosen.map some ++ some index :: rest⟩ result =
      playOn (Recorder.host resolve) ⟨played.host.log, rest⟩
        (played.session.tick (some (.choose index)))

variable {resolve : String → String} {recorder : Recorder}

theorem playOn_answer {batch : Batch} {session : Session} {items : List MenuItem}
    (asks : session.Asks batch items) (log : Array Call) (index : Nat) (rest : List (Option Nat)) :
    playOn (Recorder.host resolve) ⟨log, some index :: rest⟩ (.ok batch, session) =
      playOn (Recorder.host resolve)
        ⟨log ++ (batch.commands.map (Command.call resolve)).toArray, rest⟩
        (session.tick (some (.choose index))) := by
  have answered : (Recorder.host resolve).dispatch batch.commands ⟨log, some index :: rest⟩ = _ :=
    Recorder.dispatch_menu asks _
  rw [playOn_selected asks.waiting answered, Recorder.hear_menu asks]
  rfl

theorem faithful_failed (target : String) (session : Session) :
    Faithful resolve recorder (.error (.transferLoop target transferLimit), session)
      ⟨.error (.transferLoop target transferLimit), recorder, session⟩ [] where
  given := List.nil_prefix
  session := rfl
  heard := (Recorder.hear_nil recorder).symm
  finished := by simp
  ended := by simp
  abandoned := by simp
  refused := by simp
  awaits := by simp
  resumes := by simp

theorem faithful_finished {batch : Batch} {session : Session}
    (offers : Offers (.ok batch, session)) (calm : batch.waiting = .nothing) :
    Faithful resolve recorder (.ok batch, session)
      ⟨.ok .finished, recorder.hear resolve batch.commands, session⟩ [] := by
  obtain ⟨front, -, -, waiting⟩ := offers.shown batch rfl
  have none := Command.menus_of_silent (silent_of_calm offers calm)
  exact
    { given := List.nil_prefix
      session := rfl
      heard := by rw [displayed_ok]
      finished := by simp [calm]
      ended := fun _ => (isFinished_iff offers.reached.coherent).2
        ⟨offers.reached.started, waiting.symm.trans calm⟩
      abandoned := by simp [none]
      refused := by simp [none]
      awaits := by simp
      resumes := by simp }

theorem faithful_abandoned {batch : Batch} {session : Session} {items : List MenuItem}
    (asks : session.Asks batch items) (gaveUp : recorder.answers.head?.join = none) :
    Faithful resolve recorder (.ok batch, session)
      ⟨.ok .abandoned, recorder.hear resolve batch.commands, session⟩ [] where
  given := List.nil_prefix
  session := rfl
  heard := by rw [displayed_ok]
  finished := by simp [asks.waiting]
  ended := by simp
  abandoned := by simp [asks.menus, gaveUp]
  refused := by simp [asks.menus, gaveUp]
  awaits := by
    intro _
    rw [displayed_ok]
    exact awaits_of_asks asks
  resumes := by
    intro _ index rest
    exact playOn_answer asks recorder.log index rest

theorem faithful_refused {batch : Batch} {session : Session} {items : List MenuItem} {index : Nat}
    (asks : session.Asks batch items) (outside : items.length ≤ index) (log : Array Call)
    (rest : List (Option Nat)) :
    Faithful resolve ⟨log, some index :: rest⟩ (.ok batch, session)
      ⟨.error (.invalidChoice index items.length),
        Recorder.hear ⟨log, some index :: rest⟩ resolve batch.commands, session⟩ [index] := by
  have ticked := tick_invalid asks.offers.reached.started asks.waits outside
  have single : batches (.ok batch, session) [index] = [batch] := by
    rw [batches_cons, ticked, batches_error]
  have shown : displayed (.ok batch, session) [index] = batch.commands := by
    rw [displayed, single, List.flatMap_singleton]
  refine ⟨by simp, ?_, ?_, ?_, by simp, ?_, ?_, ?_, by simp⟩
  · rw [List.map_singleton, replay_cons, Request.select, respond, ticked]
    rfl
  · rw [shown]
  · simp [single, asks.waiting]
  · simp [shown, asks.menus]
  · intro given count
    simp only [shown, asks.menus, answered_cons, answered_nil, List.length_map, or_false]
    constructor
    · intro same
      cases same
      exact ⟨⟨rfl, rfl⟩, outside⟩
    · rintro ⟨⟨rfl, answered⟩, -⟩
      cases answered
      rfl
  · intro _
    rw [shown]
    exact awaits_of_asks asks

theorem faithful_selected {batch : Batch} {session : Session} {items : List MenuItem} {index : Nat}
    {played : Played Recorder} {chosen : List Nat} (asks : session.Asks batch items)
    (inside : index < items.length) (log : Array Call) (rest : List (Option Nat))
    (later : Faithful resolve (Recorder.hear ⟨log, some index :: rest⟩ resolve batch.commands)
      (session.tick (some (.choose index))) played chosen) :
    Faithful resolve ⟨log, some index :: rest⟩ (.ok batch, session) played (index :: chosen) := by
  have answers : (Recorder.hear ⟨log, some index :: rest⟩ resolve batch.commands).answers = rest :=
    congrArg Recorder.answers (Recorder.hear_menu asks _)
  have menus : Command.menus (displayed (.ok batch, session) (index :: chosen)) =
      items.map MenuItem.label ::
        Command.menus (displayed (session.tick (some (.choose index))) chosen) := by
    rw [displayed_cons, Command.menus_append, asks.menus]
    rfl
  refine ⟨?_, later.session, ?_, ?_, later.ended, ?_, ?_, ?_, ?_⟩
  · have given := later.given
    rw [answers] at given
    exact (List.prefix_cons_inj _).2 given
  · rw [displayed_cons, Recorder.hear_append]
    exact later.heard
  · rw [later.finished, batches_cons, List.getLast?_cons]
    cases (batches (session.tick (some (.choose index))) chosen).getLast? with
    | none => simp [asks.waiting]
    | some last => rfl
  · rw [later.abandoned, answers, menus]
    simp
  · intro given count
    rw [later.refused, answers, menus, answered_cons, List.length_map]
    constructor
    · rintro ⟨answered, outside⟩
      exact ⟨.inr answered, outside⟩
    · rintro ⟨⟨rfl, same⟩ | answered, outside⟩
      · cases same
        exact absurd inside (Nat.not_lt.2 outside)
      · exact ⟨answered, outside⟩
  · intro stopped
    rw [displayed_cons]
    exact awaits_append (later.awaits stopped) _
  · intro gaveUp other behind
    have resumed := later.resumes gaveUp other behind
    rw [Recorder.hear_menu asks] at resumed
    rw [List.map_cons, List.cons_append, playOn_answer asks]
    exact resumed

theorem exists_faithful (resolve : String → String) (recorder : Recorder)
    {result : Except StoryError Batch × Session} (offers : Offers result) :
    ∃ chosen, Faithful resolve recorder result
      (playOn (Recorder.host resolve) recorder result) chosen := by
  refine playOn_elim (Recorder.host resolve) (motive := fun recorder result played =>
    ∃ chosen, Faithful resolve recorder result played chosen) ?_ ?_ ?_ ?_ ?_ recorder offers
  · intro recorder target session
    exact ⟨[], faithful_failed target session⟩
  · intro recorder batch session offers calm
    rw [Recorder.dispatch_heard]
    exact ⟨[], faithful_finished offers calm⟩
  · intro recorder left batch session items asks answered
    rw [Recorder.dispatch_menu asks] at answered
    obtain ⟨gaveUp, rfl⟩ := Prod.mk.inj answered
    exact ⟨[], faithful_abandoned asks gaveUp⟩
  · intro recorder left batch session items index asks answered outside
    obtain ⟨log, rest, rfl, rfl⟩ := Recorder.exists_rest asks answered
    exact ⟨[index], faithful_refused asks outside log rest⟩
  · intro recorder left batch session items index played asks answered inside later
    obtain ⟨log, rest, rfl, rfl⟩ := Recorder.exists_rest asks answered
    obtain ⟨chosen, faithful⟩ := later
    exact ⟨index :: chosen, faithful_selected asks inside log rest faithful⟩

/--
After any requests, playing a scene with a list of answers is a start and one tick for each selection,
the selections being answers from the front of the list. The log has one call for each command of the
batches, in order, with texts and labels resolved; each menu takes one answer off the list as long as
there is one, and nothing else does. Playing is finished exactly if the last batch waits for nothing,
and then the session is finished. It is abandoned exactly if some menu got no selection, and it fails
at a selection exactly if some menu got one that it does not have; in both cases the session waits at
the menu that was shown last. Selecting an item of an abandoned menu goes on as playing would have
done with that selection in the list.
-/
theorem play_faithful (program : Program) (requests : List Request) (id : String)
    (resolve : String → String) (recorder : Recorder) :
    let session := (new program).replay requests
    let host := Recorder.host resolve
    let played := session.play id host recorder
    ∃ chosen : List Nat,
      let calls := .start id :: chosen.map Request.select
      let given := (session.outcomes calls).filterMap fun call => call.1.toOption
      let commands := given.flatMap Batch.commands
      let menus := Command.menus commands
      chosen.map some <+: recorder.answers ∧
      played.session = session.replay calls ∧
      played.host.log.toList = recorder.log.toList ++ commands.map (Command.call resolve) ∧
      played.host.answers = recorder.answers.drop menus.length ∧
      (played.outcome = .ok .finished ↔ given.getLast?.map Batch.waiting = some .nothing) ∧
      (played.outcome = .ok .finished → played.session.isFinished = true) ∧
      (played.outcome = .ok .abandoned ↔ ∃ count, Answered menus recorder.answers none count) ∧
      (∀ index count, played.outcome = .error (.invalidChoice index count) ↔
        Answered menus recorder.answers (some index) count ∧ count ≤ index) ∧
      (played.outcome = .ok .abandoned ∨
          (∃ index count, played.outcome = .error (.invalidChoice index count)) →
        played.session.Awaits commands) ∧
      (played.outcome = .ok .abandoned → ∀ index rest,
        session.play id host ⟨recorder.log, chosen.map some ++ some index :: rest⟩ =
          playOn host ⟨played.host.log, rest⟩
            (played.session.tick (some (.choose index)))) := by
  intro session host played
  have offers := offers_start (reached_replay program requests) id
  obtain ⟨chosen, faithful⟩ := exists_faithful resolve recorder offers
  rw [← play_eq_playOn] at faithful
  refine ⟨chosen, faithful.given, faithful.session, ?_, ?_, faithful.finished, faithful.ended,
    faithful.abandoned, faithful.refused, faithful.awaits, ?_⟩
  · rw [show played.host = _ from faithful.heard, Recorder.hear, Array.toList_append]
    rfl
  · rw [show played.host = _ from faithful.heard]
    rfl
  · intro gaveUp index rest
    rw [play_eq_playOn]
    exact faithful.resumes gaveUp index rest

end Session

end SceneScript
