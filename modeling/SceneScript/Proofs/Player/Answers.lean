import SceneScript.Player.Terminal
import SceneScript.Proofs.Story.Rounds

/-!
# Answers from the terminal

The terminal takes a line as an answer only if it is the number of an item, and it asks again
otherwise, until the input is used up or something fails. A host of this kind cannot misuse a
session: whatever it is given to read and wherever it writes, playing ends with the story, at a menu
that is given up, or in a loop of `go`s.
-/

namespace SceneScript

open SceneScript.Text

set_option autoImplicit false

/-- A host that selects nothing but items of the menu that it is asked about. -/
def Host.InRange {σ : Type} (host : Host σ) : Prop :=
  ∀ (labels : List String) (state left : σ) (index : Nat),
    host.ask labels state = (some index, left) → index < labels.length

def Played.Proper {σ : Type} (played : Played σ) : Prop :=
  played.outcome = .ok .finished ∨ played.outcome = .ok .abandoned ∨
    ∃ target, played.outcome = .error (.transferLoop target Session.transferLimit)

theorem Session.proper_playOn {σ : Type} {host : Host σ} (inRange : host.InRange) (state : σ)
    {result : Except StoryError Batch × Session} (offers : Offers result) :
    (playOn host state result).Proper := by
  refine playOn_elim host (motive := fun _ _ played => played.Proper) ?_ ?_ ?_ ?_ ?_ state offers
  · intro state target session
    exact .inr (.inr ⟨target, rfl⟩)
  · intro state batch session offers calm
    exact .inl rfl
  · intro state left batch session items asks answered
    exact .inr (.inl rfl)
  · intro state left batch session items index asks answered outside
    obtain ⟨front, -, commands⟩ := asks.shown
    rw [commands, host.dispatch_menu] at answered
    have inside := inRange _ _ left index answered
    rw [List.length_map, List.length_map] at inside
    exact absurd inside (Nat.not_lt.2 outside)
  · intro state left batch session items index played asks answered inside proper
    exact proper

namespace Terminal

variable {τ : Type}

theorem selection?_lt {count position : Nat} {answer : List Char}
    (selects : selection? count answer = some position) : position < count := by
  obtain ⟨number, -, bounded⟩ := Option.bind_eq_some_iff.1 selects
  split at bounded
  · rename_i fits
    rw [← Option.some.inj bounded]
    omega
  · cases bounded

theorem await_lt (config : Config) (sink : Sink τ) (count : Nat) (terminal : Terminal τ)
    (position : Nat) (answered : (terminal.await config sink count).1 = some position) :
    position < count := by
  fun_induction await config sink count terminal with
  | case1 => cases answered
  | case2 terminal answer left reads found selects =>
    rw [← Option.some.inj answered]
    exact selection?_lt selects
  | case3 terminal answer left reads rejects ih => exact ih answered

theorem inRange_host (config : Config) (sink : Sink τ) : (host config sink).InRange := by
  intro labels terminal left index answered
  exact await_lt config sink labels.length _ index (congrArg Prod.fst answered)

/--
Whatever the program, the scene and the settings are, whatever the terminal has to read and whether
its input ends or breaks off, and whether or not the sink takes what is written, playing a new
session on the terminal ends with the story, at a menu that is given up, or in a loop of `go`s. It
never selects an item that is not there, never selects without a menu and never goes on before the
start.
-/
theorem play_proper (program : Program) (id : String) (config : Config) (sink : Sink τ)
    (terminal : Terminal τ) :
    let played := (Session.new program).play id (host config sink) terminal
    played.outcome = .ok .finished ∨ played.outcome = .ok .abandoned ∨
      ∃ target, played.outcome = .error (.transferLoop target Session.transferLimit) := by
  intro played
  have offers := Session.offers_start (Session.reached_new program) id
  have proper := Session.proper_playOn (inRange_host config sink) terminal offers
  rw [← Session.play_eq_playOn] at proper
  exact proper

end Terminal

end SceneScript
