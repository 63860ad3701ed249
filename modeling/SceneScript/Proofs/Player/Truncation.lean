import SceneScript.Proofs.Player.Answers
import SceneScript.Proofs.Story.Serving

/-!
# A fault only cuts off

A terminal that has met a fault does nothing any more: it neither reads nor writes, and every menu
is given up. So an output that fails can only cut a session off. Next to the same session with an
output that never fails, the terminal is in step as long as there is no fault, and once it has
stopped, the other one only writes more and reads on.
-/

namespace SceneScript

open SceneScript.Text

set_option autoImplicit false

namespace Sink

variable {τ : Type} {sink : Sink τ}

/-- The states that writing and flushing lead to. -/
inductive Leads (sink : Sink τ) (origin : τ) : τ → Prop where
  | here : Leads sink origin origin
  | write {state : τ} (bytes : List UInt8) (before : Leads sink origin state) :
      Leads sink origin (sink.write bytes state).2
  | flush {state : τ} (before : Leads sink origin state) : Leads sink origin (sink.flush state).2

def NeverFails (sink : Sink τ) (origin : τ) : Prop :=
  ∀ state, sink.Leads origin state →
    (∀ bytes, (sink.write bytes state).1 = none) ∧ (sink.flush state).1 = none

theorem leads_trans {first second third : τ} (before : sink.Leads first second)
    (behind : sink.Leads second third) : sink.Leads first third := by
  induction behind with
  | here => exact before
  | write bytes _ ih => exact ih.write bytes
  | flush _ ih => exact ih.flush

theorem neverFails_of_leads {origin state : τ} (never : sink.NeverFails origin)
    (leads : sink.Leads origin state) : sink.NeverFails state := by
  intro later behind
  exact never later (leads_trans leads behind)

end Sink

theorem Buffer.neverFails_unlimited {buffer : Buffer} (unlimited : buffer.limit = none) :
    sink.NeverFails buffer := by
  intro state leads
  have stays : state.limit = none := by
    induction leads with
    | here => exact unlimited
    | write bytes before ih => exact ih
    | flush before ih => exact ih
  refine ⟨?_, rfl⟩
  intro bytes
  simp [sink, write, accept, stays]

namespace Terminal

variable {τ : Type}

section Await

variable {config : Config} {sink : Sink τ} {count : Nat} {terminal left : Terminal τ}
  {answer : List Char}

theorem await_silent (reads : (terminal.prompt config sink).read = (none, left)) :
    terminal.await config sink count = (none, left) := by
  rw [await]
  split
  · rename_i rest same
    cases same.symm.trans reads
    rfl
  · rename_i other rest same
    cases same.symm.trans reads

theorem await_answer (reads : (terminal.prompt config sink).read = (some answer, left)) :
    terminal.await config sink count =
      match selection? count answer with
      | some position => (some position, left)
      | none => (left.emit sink (rejection count)).await config sink count := by
  rw [await]
  split
  · rename_i rest same
    cases same.symm.trans reads
  · rename_i other rest same
    cases same.symm.trans reads
    rfl

end Await

section Fault

variable {terminal : Terminal τ} (failed : terminal.fault.isSome = true) (config : Config)
  (sink : Sink τ)

include failed

theorem put_of_fault (bytes : List UInt8) : terminal.put sink bytes = terminal := by
  simp [put, failed]

theorem flush_of_fault : terminal.flush sink = terminal := by
  simp [flush, failed]

theorem emit_of_fault (line : String) : terminal.emit sink line = terminal := by
  simp [emit, put_of_fault failed]

theorem read_of_fault : terminal.read = (none, terminal) := by
  simp [read, failed]

theorem prompt_of_fault : terminal.prompt config sink = terminal := by
  simp [prompt, put_of_fault failed, flush_of_fault failed]

theorem render_of_fault (display : Display) : terminal.render config sink display = terminal := by
  cases display <;> simp [render, emit_of_fault failed]

theorem list_of_fault (labels : List String) : terminal.list sink labels = terminal := by
  unfold list
  generalize labels.zipIdx = items
  induction items with
  | nil => rfl
  | cons item rest ih =>
      obtain ⟨label, position⟩ := item
      rw [List.foldl_cons]
      dsimp only
      rw [emit_of_fault failed]
      exact ih

theorem await_of_fault (count : Nat) : terminal.await config sink count = (none, terminal) := by
  apply await_silent
  rw [prompt_of_fault failed, read_of_fault failed]

theorem ask_of_fault (labels : List String) :
    terminal.ask config sink labels = (none, terminal) := by
  rw [ask, list_of_fault failed, await_of_fault failed]

theorem serve_of_fault (calls : List Call) :
    ((host config sink).serve terminal calls).2 = terminal ∧
      ∀ answer ∈ ((host config sink).serve terminal calls).1, answer = none := by
  induction calls with
  | nil => exact ⟨rfl, nofun⟩
  | cons call rest ih =>
      rcases call with display | labels
      · have same : (host config sink).render display terminal = terminal :=
          render_of_fault failed config sink display
        rw [Host.serve, same]
        exact ih
      · have same : (host config sink).ask labels terminal = (none, terminal) :=
          ask_of_fault failed config sink labels
        rw [Host.serve, same]
        exact ⟨ih.1, List.forall_mem_cons.2 ⟨rfl, ih.2⟩⟩

end Fault

/-- Some input may have been read and something may have been written. -/
structure Grows (sink : Sink τ) (earlier later : Terminal τ) : Prop where
  input : later.input <:+ earlier.input
  written : sink.written earlier.output <+: sink.written later.output

section Grows

variable (config : Config) (sink : Sink τ) (terminal : Terminal τ)
  {first second third : Terminal τ}

theorem Grows.refl {sink : Sink τ} : Grows sink terminal terminal :=
  ⟨List.suffix_refl _, List.prefix_refl _⟩

theorem Grows.trans {sink : Sink τ} (before : Grows sink first second)
    (behind : Grows sink second third) : Grows sink first third :=
  ⟨behind.input.trans before.input, before.written.trans behind.written⟩

theorem grows_put (bytes : List UInt8) : Grows sink terminal (terminal.put sink bytes) := by
  refine ⟨?_, ?_⟩
  · simp only [input_put, List.suffix_refl]
  · unfold put
    split
    · exact List.prefix_refl _
    · by_cases fails : (sink.write bytes terminal.output).1 = none
      · rw [sink.written_ok bytes terminal.output fails]
        exact List.prefix_append _ _
      · obtain ⟨kept, -, added⟩ := sink.written_fault bytes terminal.output fails
        rw [added]
        exact List.prefix_append _ _

theorem grows_flush : Grows sink terminal (terminal.flush sink) := by
  refine ⟨?_, ?_⟩
  · simp only [input_flush, List.suffix_refl]
  · unfold flush
    split
    · exact List.prefix_refl _
    · simp only [sink.written_flush, List.prefix_refl]

theorem grows_emit (line : String) : Grows sink terminal (terminal.emit sink line) :=
  (grows_put sink terminal _).trans (grows_put sink _ _)

theorem grows_prompt : Grows sink terminal (terminal.prompt config sink) :=
  (grows_put sink terminal _).trans (grows_flush sink _)

theorem grows_read : Grows sink terminal terminal.read.2 := by
  refine ⟨input_read_suffix terminal, ?_⟩
  unfold read
  split
  · exact List.prefix_refl _
  · split <;> exact List.prefix_refl _

theorem grows_render (display : Display) :
    Grows sink terminal (terminal.render config sink display) := by
  cases display with
  | text content => exact grows_emit sink terminal content
  | image path => exact grows_emit sink terminal _
  | clear =>
      simp only [render]
      split
      · exact .refl terminal
      · exact grows_emit sink terminal _
  | style style =>
      simp only [render]
      split
      · exact grows_emit sink terminal _
      · exact .refl terminal

theorem grows_list (labels : List String) : Grows sink terminal (terminal.list sink labels) := by
  unfold list
  generalize labels.zipIdx = items
  induction items generalizing terminal with
  | nil => exact .refl terminal
  | cons item rest ih => exact (grows_emit sink terminal _).trans (ih _)

theorem grows_await (count : Nat) :
    Grows sink (terminal.prompt config sink) (terminal.await config sink count).2 := by
  fun_induction await config sink count terminal with
  | case1 terminal left reads =>
      have read := grows_read sink (terminal.prompt config sink)
      rw [reads] at read
      exact read
  | case2 terminal answer left reads position selects =>
      have read := grows_read sink (terminal.prompt config sink)
      rw [reads] at read
      exact read
  | case3 terminal answer left reads rejects ih =>
      have read := grows_read sink (terminal.prompt config sink)
      rw [reads] at read
      exact read.trans ((grows_emit sink left _).trans ((grows_prompt config sink _).trans ih))

theorem grows_ask (labels : List String) :
    Grows sink terminal (terminal.ask config sink labels).2 :=
  (grows_list sink terminal labels).trans
    ((grows_prompt config sink _).trans (grows_await config sink _ _))

theorem grows_serve (calls : List Call) :
    Grows sink terminal ((host config sink).serve terminal calls).2 := by
  induction calls generalizing terminal with
  | nil => exact .refl terminal
  | cons call rest ih =>
      rcases call with display | labels
      · exact (grows_render config sink terminal display).trans (ih _)
      · exact (grows_ask config sink terminal labels).trans (ih _)

end Grows

end Terminal

open Terminal

/-- Two outputs, the second one to last, and what had been written to each of them before. -/
structure Comparison (τ υ : Type) where
  sink : Sink τ
  lasting : Sink υ
  first : List UInt8
  second : List UInt8

namespace Comparison

variable {τ υ : Type}

/-- The same was read and written on both sides, and the same can be read. -/
structure InStep (pair : Comparison τ υ) (short : Terminal τ) (whole : Terminal υ) : Prop where
  input : whole.input = short.input
  broken : whole.broken = short.broken
  fault : whole.fault = short.fault
  written : ∃ kept, pair.sink.written short.output = pair.first ++ kept ∧
    pair.lasting.written whole.output = pair.second ++ kept
  never : pair.lasting.NeverFails whole.output

/-- One side has met a fault, and the other one has gone on from there. -/
structure Stopped (pair : Comparison τ υ) (short : Terminal τ) (whole : Terminal υ) : Prop where
  failed : short.fault.isSome = true
  input : whole.input <:+ short.input
  written : ∃ kept lost, pair.sink.written short.output = pair.first ++ kept ∧
    pair.lasting.written whole.output = pair.second ++ (kept ++ lost)

def Truncates (pair : Comparison τ υ) (short : Terminal τ) (whole : Terminal υ) : Prop :=
  pair.InStep short whole ∨ pair.Stopped short whole

/-- The same answer in step, or any two answers once one side has stopped. -/
def Follows {α : Type} (pair : Comparison τ υ) (short : α × Terminal τ) (whole : α × Terminal υ) :
    Prop :=
  short.1 = whole.1 ∧ pair.InStep short.2 whole.2 ∨ pair.Stopped short.2 whole.2

variable {pair : Comparison τ υ} {short : Terminal τ} {whole : Terminal υ}

theorem Follows.elim {α : Type} {one : α × Terminal τ} {other : α × Terminal υ}
    (follows : pair.Follows one other) :
    (∃ answer left rest, one = (answer, left) ∧ other = (answer, rest) ∧ pair.InStep left rest) ∨
      pair.Stopped one.2 other.2 := by
  obtain ⟨same, inStep⟩ | stopped := follows
  · exact .inl ⟨one.1, one.2, other.2, rfl, Prod.ext same.symm rfl, inStep⟩
  · exact .inr stopped

theorem Stopped.grow {later : Terminal υ} (stopped : pair.Stopped short whole)
    (grows : Grows pair.lasting whole later) : pair.Stopped short later := by
  obtain ⟨kept, lost, here, there⟩ := stopped.written
  obtain ⟨more, added⟩ := grows.written
  refine ⟨stopped.failed, grows.input.trans stopped.input, kept, lost ++ more, here, ?_⟩
  rw [← added, there]
  simp only [List.append_assoc]

/-- It is enough to look at terminals in step, for steps that do nothing behind a fault. -/
theorem truncates_of_inStep {step : Terminal τ → Terminal τ} {other : Terminal υ → Terminal υ}
    (inert : ∀ terminal : Terminal τ, terminal.fault.isSome = true → step terminal = terminal)
    (grows : ∀ terminal, Grows pair.lasting terminal (other terminal))
    (together : pair.InStep short whole → pair.Truncates (step short) (other whole))
    (truncates : pair.Truncates short whole) : pair.Truncates (step short) (other whole) := by
  obtain inStep | stopped := truncates
  · exact together inStep
  · right
    rw [inert short stopped.failed]
    exact stopped.grow (grows whole)

theorem truncates_put (bytes : List UInt8) (truncates : pair.Truncates short whole) :
    pair.Truncates (short.put pair.sink bytes) (whole.put pair.lasting bytes) := by
  refine truncates_of_inStep (fun terminal failed => put_of_fault failed _ bytes)
    (fun terminal => grows_put _ terminal bytes) ?_ truncates
  intro inStep
  by_cases quiet : (short.fault.isSome || bytes.isEmpty) = true
  · left
    rw [put, put, inStep.fault, if_pos quiet, if_pos quiet]
    exact inStep
  · rw [put, put, inStep.fault, if_neg quiet, if_neg quiet]
    obtain ⟨kept, here, there⟩ := inStep.written
    have takes := (inStep.never _ .here).1 bytes
    have never := Sink.neverFails_of_leads inStep.never (.write bytes .here)
    have added := pair.lasting.written_ok bytes whole.output takes
    by_cases fits : (pair.sink.write bytes short.output).1 = none
    · left
      refine ⟨inStep.input, inStep.broken, takes.trans fits.symm, ⟨kept ++ bytes, ?_, ?_⟩, never⟩
      · rw [pair.sink.written_ok bytes short.output fits, here, List.append_assoc]
      · rw [added, there, List.append_assoc]
    · right
      obtain ⟨front, ⟨lost, rfl⟩, cut⟩ := pair.sink.written_fault bytes short.output fits
      refine ⟨Option.isSome_iff_ne_none.2 fits, ?_, kept ++ front, lost, ?_, ?_⟩
      · simp only [inStep.input, List.suffix_refl]
      · rw [cut, here, List.append_assoc]
      · rw [added, there]
        simp only [List.append_assoc]

theorem truncates_flush (truncates : pair.Truncates short whole) :
    pair.Truncates (short.flush pair.sink) (whole.flush pair.lasting) := by
  refine truncates_of_inStep (fun terminal failed => flush_of_fault failed _)
    (fun terminal => grows_flush _ terminal) ?_ truncates
  intro inStep
  by_cases quiet : short.fault.isSome = true
  · left
    rw [flush, flush, inStep.fault, if_pos quiet, if_pos quiet]
    exact inStep
  · rw [flush, flush, inStep.fault, if_neg quiet, if_neg quiet]
    obtain ⟨kept, here, there⟩ := inStep.written
    have takes := (inStep.never _ .here).2
    have never := Sink.neverFails_of_leads inStep.never (.flush .here)
    rw [← pair.sink.written_flush] at here
    rw [← pair.lasting.written_flush] at there
    by_cases fits : (pair.sink.flush short.output).1 = none
    · left
      exact ⟨inStep.input, inStep.broken, takes.trans fits.symm, ⟨kept, here, there⟩, never⟩
    · right
      refine ⟨Option.isSome_iff_ne_none.2 fits, ?_, kept, [], here, ?_⟩
      · simp only [inStep.input, List.suffix_refl]
      · rw [List.append_nil]
        exact there

theorem truncates_emit (line : String) (truncates : pair.Truncates short whole) :
    pair.Truncates (short.emit pair.sink line) (whole.emit pair.lasting line) :=
  truncates_put _ (truncates_put _ truncates)

theorem truncates_prompt (config : Config) (truncates : pair.Truncates short whole) :
    pair.Truncates (short.prompt config pair.sink) (whole.prompt config pair.lasting) :=
  truncates_flush (truncates_put _ truncates)

theorem truncates_render (config : Config) (display : Display)
    (truncates : pair.Truncates short whole) :
    pair.Truncates (short.render config pair.sink display)
      (whole.render config pair.lasting display) := by
  cases display with
  | text content => exact truncates_emit content truncates
  | image path => exact truncates_emit _ truncates
  | clear =>
      simp only [render]
      split
      · exact truncates
      · exact truncates_emit _ truncates
  | style style =>
      simp only [render]
      split
      · exact truncates_emit _ truncates
      · exact truncates

theorem truncates_list (labels : List String) (truncates : pair.Truncates short whole) :
    pair.Truncates (short.list pair.sink labels) (whole.list pair.lasting labels) := by
  unfold list
  generalize labels.zipIdx = items
  induction items generalizing short whole with
  | nil => exact truncates
  | cons item rest ih => exact ih (truncates_emit _ truncates)

theorem inStep_read (inStep : pair.InStep short whole) :
    ∃ answer left rest, short.read = (answer, left) ∧ whole.read = (answer, rest) ∧
      pair.InStep left rest := by
  rw [Terminal.read, Terminal.read, inStep.fault, inStep.input, inStep.broken]
  split
  · exact ⟨none, short, whole, rfl, rfl, inStep⟩
  · split
    · exact ⟨_, _, _, rfl, rfl, rfl, rfl, rfl, inStep.written, inStep.never⟩
    · exact ⟨_, _, _, rfl, rfl, rfl, rfl, rfl, inStep.written, inStep.never⟩

theorem stopped_await (config : Config) (count : Nat) (stopped : pair.Stopped short whole) :
    pair.Stopped (short.await config pair.sink count).2
      (whole.await config pair.lasting count).2 := by
  rw [await_of_fault stopped.failed]
  exact stopped.grow ((grows_prompt config _ _).trans (grows_await config _ _ count))

theorem follows_await (config : Config) (count : Nat) (inStep : pair.InStep short whole) :
    pair.Follows (short.await config pair.sink count) (whole.await config pair.lasting count) := by
  -- The induction is on the input: a line that is rejected is followed by another prompt.
  induction size : short.input.length using Nat.strongRecOn generalizing short whole with
  | ind size ih =>
      obtain prompted | stopped := truncates_prompt config (.inl inStep)
      · obtain ⟨answer, left, rest, reads, others, onward⟩ := inStep_read prompted
        cases answer with
        | none =>
            rw [await_silent reads, await_silent others]
            exact .inl ⟨rfl, onward⟩
        | some answer =>
            rw [await_answer reads, await_answer others]
            cases selection? count answer with
            | some position => exact .inl ⟨rfl, onward⟩
            | none =>
                obtain rejected | stopped := truncates_emit (rejection count) (.inl onward)
                · refine ih _ ?_ rejected rfl
                  have shorter := input_read_lt reads
                  rw [input_prompt, size] at shorter
                  rwa [input_emit]
                · exact .inr (stopped_await config count stopped)
      -- The prompt has stopped one side, and the other one may go on as long as it likes.
      · right
        rw [await_silent (read_of_fault stopped.failed)]
        exact stopped.grow (grows_await config pair.lasting whole count)

theorem follows_ask (config : Config) (labels : List String) (inStep : pair.InStep short whole) :
    pair.Follows (short.ask config pair.sink labels) (whole.ask config pair.lasting labels) := by
  obtain listed | stopped := truncates_list labels (.inl inStep)
  · exact follows_await config labels.length listed
  · exact .inr (stopped_await config labels.length stopped)

theorem stopped_serve (config : Config) (calls others : List Call)
    (stopped : pair.Stopped short whole) :
    pair.Stopped ((host config pair.sink).serve short calls).2
      ((host config pair.lasting).serve whole others).2 := by
  rw [(serve_of_fault stopped.failed config pair.sink calls).1]
  exact stopped.grow (grows_serve config pair.lasting whole others)

theorem follows_serve (config : Config) (calls : List Call) (inStep : pair.InStep short whole) :
    pair.Follows ((host config pair.sink).serve short calls)
      ((host config pair.lasting).serve whole calls) := by
  induction calls generalizing short whole with
  | nil => exact .inl ⟨rfl, inStep⟩
  | cons call rest ih =>
      rcases call with display | labels
      · obtain shown | stopped := truncates_render config display (.inl inStep)
        · exact ih shown
        · exact .inr (stopped_serve config rest rest stopped)
      · obtain ⟨same, onward⟩ | stopped := follows_ask config labels inStep
        · obtain ⟨answers, later⟩ | stopped := ih onward
          · exact .inl ⟨List.cons_eq_cons.2 ⟨same, answers⟩, later⟩
          · exact .inr stopped
        · exact .inr (stopped_serve config rest rest stopped)

theorem follows_dispatch (config : Config) (commands : List Command)
    (inStep : pair.InStep short whole) :
    pair.Follows ((host config pair.sink).dispatch commands short)
      ((host config pair.lasting).dispatch commands whole) := by
  rw [Host.dispatch_eq_serve, Host.dispatch_eq_serve]
  obtain ⟨answers, later⟩ | stopped := follows_serve config
    (commands.map (Command.call (host config pair.sink).resolve)) inStep
  · exact .inl ⟨congrArg (fun given => given.getLast?.getD none) answers, later⟩
  · exact .inr stopped

theorem truncates_playOn (config : Config) (result : Except StoryError Batch × Session)
    (inStep : pair.InStep short whole) :
    pair.Truncates (Session.playOn (host config pair.sink) short result).host
      (Session.playOn (host config pair.lasting) whole result).host := by
  -- In step, every selection costs the same lines of the input on both sides.
  induction size : short.input.length using Nat.strongRecOn generalizing short whole result with
  | ind size ih =>
      obtain ⟨outcome, session⟩ := result
      cases outcome with
      | error error => exact .inl inStep
      | ok batch =>
          have follows := follows_dispatch config batch.commands inStep
          obtain ⟨answer, left, rest, answered, others, onward⟩ | stopped := follows.elim
          · cases waiting : batch.waiting with
            | nothing =>
                rw [Session.playOn_calm waiting, Session.playOn_calm waiting, answered, others]
                exact .inl onward
            | choice count =>
                cases answer with
                | none =>
                    rw [Session.playOn_abandoned waiting answered,
                      Session.playOn_abandoned waiting others]
                    exact .inl onward
                | some index =>
                    have fewer := (host config pair.sink).patience_dispatch_lt answered
                    rw [Session.playOn_selected waiting answered,
                      Session.playOn_selected waiting others]
                    exact ih _ (size ▸ fewer) _ onward rfl
          · obtain ⟨calls, ends⟩ :=
              Session.exists_calls_behind (host config pair.sink) short batch session
            obtain ⟨others, finishes⟩ :=
              Session.exists_calls_behind (host config pair.lasting) whole batch session
            rw [ends, finishes]
            exact .inr (stopped_serve config calls others stopped)

end Comparison

namespace Terminal

variable {τ υ : Type}

/--
What one side has read and written since the beginning is the beginning of what the other side has,
and it is the whole of it unless there is a fault.
-/
def CutOff (sink : Sink τ) (lasting : Sink υ) (start short : Terminal τ)
    (origin whole : Terminal υ) : Prop :=
  ∃ kept lost consumed unread : List UInt8,
    sink.written short.output = sink.written start.output ++ kept ∧
    lasting.written whole.output = lasting.written origin.output ++ (kept ++ lost) ∧
    start.input = consumed ++ short.input ∧
    origin.input = (consumed ++ unread) ++ whole.input ∧
    (short.fault = none → lost = [] ∧ unread = [])

theorem cutOff_of_truncates {sink : Sink τ} {lasting : Sink υ} {start short : Terminal τ}
    {origin whole : Terminal υ}
    (truncates : Comparison.Truncates ⟨sink, lasting, sink.written start.output,
      lasting.written origin.output⟩ short whole)
    (same : origin.input = start.input) (grows : Grows sink start short) :
    CutOff sink lasting start short origin whole := by
  obtain ⟨consumed, behind⟩ := grows.input
  obtain inStep | stopped := truncates
  · obtain ⟨kept, here, there⟩ := inStep.written
    refine ⟨kept, [], consumed, [], here, ?_, behind.symm, ?_, fun _ => ⟨rfl, rfl⟩⟩
    · rw [List.append_nil]
      exact there
    · rw [List.append_nil, inStep.input, behind]
      exact same
  · obtain ⟨kept, lost, here, there⟩ := stopped.written
    obtain ⟨unread, rest⟩ := stopped.input
    refine ⟨kept, lost, consumed, unread, here, there, behind.symm, ?_, ?_⟩
    · rw [List.append_assoc, rest, behind]
      exact same
    · intro calm
      have failed := stopped.failed
      rw [calm] at failed
      cases failed

theorem grows_play (config : Config) (sink : Sink τ) (terminal : Terminal τ) (session : Session)
    (id : String) : Grows sink terminal (session.play id (host config sink) terminal).host := by
  obtain ⟨chosen, ends, -⟩ :=
    Session.exists_calls (host config sink) terminal (session.start id)
  rw [Session.play_eq_playOn, ends]
  exact grows_serve config sink terminal _

/--
Whatever the settings, the sink and the state of the terminal are: once calls have led to a fault,
no further call changes anything, so nothing is read or written, and every menu is given up. Playing
is a sequence of such calls, so the same holds from the first fault of any play on. Now let the
input be read twice, once next to any sink and once next to one that never fails. After the same
calls, and after playing the same scene, what was written and what was read in the first run are the
beginning of what was written and read in the second, and nothing is missing unless there was a
fault.
-/
theorem fault_cuts_off (config : Config) (sink : Sink τ) (lasting : Sink υ) :
    let player := host config sink
    (∀ (terminal : Terminal τ) (earlier later : List Call),
      let met := (player.serve terminal earlier).2
      met.fault.isSome = true →
        (player.serve met later).2 = met ∧ ∀ answer ∈ (player.serve met later).1, answer = none) ∧
    (∀ (terminal : Terminal τ) (session : Session) (id : String),
      let played := session.play id player terminal
      ∃ chosen : List Nat,
        played.session = session.replay (.start id :: chosen.map Session.Request.select) ∧
        played.host = (player.serve terminal (Session.calls player (session.start id) chosen)).2 ∧
        ∀ earlier later, Session.calls player (session.start id) chosen = earlier ++ later →
          let met := (player.serve terminal earlier).2
          met.fault.isSome = true →
            played.host = met ∧ ∀ answer ∈ (player.serve met later).1, answer = none) ∧
    ∀ (input : List UInt8) (broken : Option StreamFault) (output : τ) (other : υ),
      lasting.NeverFails other →
      let start : Terminal τ := ⟨input, broken, output, none⟩
      let origin : Terminal υ := ⟨input, broken, other, none⟩
      (∀ calls, CutOff sink lasting start (player.serve start calls).2
        origin ((host config lasting).serve origin calls).2) ∧
      ∀ (session : Session) (id : String),
        CutOff sink lasting start (session.play id player start).host
          origin (session.play id (host config lasting) origin).host := by
  intro player
  refine ⟨?_, ?_, ?_⟩
  · intro terminal earlier later met failed
    exact serve_of_fault failed config sink later
  · intro terminal session id played
    obtain ⟨chosen, ends, moved⟩ := Session.exists_calls player terminal (session.start id)
    rw [← Session.play_eq_playOn] at ends moved
    refine ⟨chosen, moved, ends, ?_⟩
    intro earlier later calls met failed
    obtain ⟨stays, refused⟩ := serve_of_fault failed config sink later
    rw [calls, Host.serve_append] at ends
    exact ⟨ends.trans stays, refused⟩
  · intro input broken output other never start origin
    have inStep : Comparison.InStep ⟨sink, lasting, sink.written output, lasting.written other⟩
        start origin :=
      ⟨rfl, rfl, rfl, ⟨[], (List.append_nil _).symm, (List.append_nil _).symm⟩, never⟩
    refine ⟨?_, ?_⟩
    · intro calls
      obtain ⟨-, later⟩ | stopped := Comparison.follows_serve config calls inStep
      · exact cutOff_of_truncates (.inl later) rfl (grows_serve config sink start calls)
      · exact cutOff_of_truncates (.inr stopped) rfl (grows_serve config sink start calls)
    · intro session id
      have truncates := Comparison.truncates_playOn config (session.start id) inStep
      rw [← Session.play_eq_playOn, ← Session.play_eq_playOn] at truncates
      exact cutOff_of_truncates truncates rfl (grows_play config sink start session id)

/-- A limit of twenty bytes is met while an answer is rejected; the next one would be taken. -/
theorem fault_cuts_off_limit :
    let player := host Config.initial Buffer.sink
    let start : Terminal Buffer := ⟨[55, 10, 50, 10], none, .new (some 20), none⟩
    let origin : Terminal Buffer := ⟨[55, 10, 50, 10], none, .new none, none⟩
    let later : List Call := [.show (.text "c"), .menu ["d"]]
    let met := (player.serve start [.menu ["a", "b"]]).2
    (met.fault = some .limitReached ∧ met.input = [50, 10] ∧ met.output.bytes.size = 20) ∧
      ((player.serve met later).2 = met ∧ ∀ answer ∈ (player.serve met later).1, answer = none) ∧
      ((Session.new .empty).play "CH0" player met).host = met ∧
      Buffer.sink.NeverFails (.new none) ∧
      (player.serve origin (.menu ["a", "b"] :: later)).1 = [some 1, none] ∧
      CutOff Buffer.sink Buffer.sink start (player.serve start (.menu ["a", "b"] :: later)).2
        origin (player.serve origin (.menu ["a", "b"] :: later)).2 := by
  intro player start origin later met
  obtain ⟨inert, plays, cuts⟩ := fault_cuts_off Config.initial Buffer.sink Buffer.sink
  have fault : met.fault = some .limitReached := by decide +kernel
  have failed : met.fault.isSome = true := by rw [fault]; rfl
  have never : Buffer.sink.NeverFails (.new none) := Buffer.neverFails_unlimited rfl
  obtain ⟨chosen, -, -, stays⟩ := plays met (.new .empty) "CH0"
  refine ⟨⟨fault, by decide +kernel, by decide +kernel⟩, ?_, ?_, never, by decide +kernel, ?_⟩
  · exact inert start [.menu ["a", "b"]] later failed
  · exact (stays [] _ rfl failed).1
  · exact (cuts [55, 10, 50, 10] none _ _ never).1 _

end Terminal

end SceneScript
