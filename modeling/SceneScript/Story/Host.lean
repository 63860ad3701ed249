import SceneScript.Story.Session

/-!
# Hosts and playing

A host shows what a story gives it and asks the player at a menu. Its `patience` bounds how often it
may still select an item: showing never raises it and every selection lowers it, so playing ends.
-/

namespace SceneScript

set_option autoImplicit false

inductive Display where
  | text (content : String)
  | image (path : String)
  | clear
  | style (style : Style)
deriving DecidableEq

/-- A host with states of type `σ`. A menu is answered with a position, or given up. -/
structure Host (σ : Type) where
  resolve : String → String
  render : Display → σ → σ
  ask : List String → σ → Option Nat × σ
  patience : σ → Nat
  render_le : ∀ (display : Display) (state : σ), patience (render display state) ≤ patience state
  ask_le : ∀ (labels : List String) (state : σ), patience (ask labels state).2 ≤ patience state
  ask_lt : ∀ (labels : List String) (state : σ), (ask labels state).1.isSome →
    patience (ask labels state).2 < patience state

namespace Host

variable {σ : Type}

/-- Hands one command over; a menu gives a new selection, everything else keeps the old one. -/
def perform (host : Host σ) (current : Option Nat × σ) : Command → Option Nat × σ
  | .showText content => (current.1, host.render (.text (host.resolve content)) current.2)
  | .showImage path => (current.1, host.render (.image path) current.2)
  | .clearTransient => (current.1, host.render .clear current.2)
  | .applyStyle style => (current.1, host.render (.style style) current.2)
  | .presentChoices labels => host.ask (labels.map host.resolve) current.2

/-- Hands commands over in order; gives the selection of the last menu. -/
def dispatch (host : Host σ) (commands : List Command) (state : σ) : Option Nat × σ :=
  commands.foldl host.perform (none, state)

/-- What is left of the patience, and one more for a selection that was made. -/
def slack (host : Host σ) (current : Option Nat × σ) : Nat :=
  host.patience current.2 + if current.1.isSome then 1 else 0

theorem slack_perform_le (host : Host σ) (current : Option Nat × σ) (command : Command) :
    host.slack (host.perform current command) ≤ host.slack current := by
  cases command with
  | presentChoices labels =>
    have weak := host.ask_le (labels.map host.resolve) current.2
    have strong := host.ask_lt (labels.map host.resolve) current.2
    simp only [slack, perform]
    by_cases answered : (host.ask (labels.map host.resolve) current.2).1.isSome
    · have lower := strong answered
      simp only [answered, if_true]
      omega
    · simp only [answered]
      exact Nat.le_trans weak (Nat.le_add_right _ _)
  | _ => exact Nat.add_le_add_right (host.render_le _ _) _

theorem slack_dispatch_le (host : Host σ) (commands : List Command) (state : σ) :
    host.slack (host.dispatch commands state) ≤ host.patience state := by
  suffices bound : ∀ current : Option Nat × σ,
      host.slack (commands.foldl host.perform current) ≤ host.slack current from bound (none, state)
  induction commands with
  | nil => exact fun current => Nat.le_refl _
  | cons command rest ih =>
    exact fun current => Nat.le_trans (ih _) (host.slack_perform_le current command)

end Host

inductive Ending where
  | finished
  | abandoned
deriving DecidableEq

/-- The end of playing: how it ended, and what is left of host and session. -/
structure Played (σ : Type) where
  outcome : Except StoryError Ending
  host : σ
  session : Session

namespace Session

variable {σ : Type}

/-- Shows a batch and goes on with the selections of the host until the story ends. -/
def proceed (host : Host σ) (state : σ) (session : Session) (batch : Batch) : Played σ :=
  match _ : host.dispatch batch.commands state with
  | (selection, shownState) =>
    match batch.waiting with
    | .nothing => ⟨.ok .finished, shownState, session⟩
    | .choice _ =>
      match selection with
      | none => ⟨.ok .abandoned, shownState, session⟩
      | some index =>
        match session.tick (some (.choose index)) with
        | (.error error, ticked) => ⟨.error error, shownState, ticked⟩
        | (.ok next, ticked) => proceed host shownState ticked next
termination_by host.patience state
decreasing_by
  rename_i shown
  have bound := host.slack_dispatch_le batch.commands state
  rw [shown] at bound
  simp only [Host.slack, Option.isSome_some, if_true] at bound
  omega

/-- Plays a scene until the story ends or the player gives up. -/
def play (session : Session) (id : String) (host : Host σ) (state : σ) : Played σ :=
  match session.start id with
  | (.error error, started) => ⟨.error error, state, started⟩
  | (.ok batch, started) => proceed host state started batch

end Session

end SceneScript
