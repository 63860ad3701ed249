import Mathlib.Data.List.Sort
import SceneScript.Codec.Story
import SceneScript.Proofs.Analysis.Findings
import SceneScript.Proofs.Codec.Script
import SceneScript.Proofs.Story.Reachability

/-!
# Stories are written without loss

The values that pass between a story and what plays it read back as they were written, and so does
the state of a story. A set may be written in any order of its members, since what is read is
brought into ascending order and two ascending lists of the same members are one list. So nothing
that is asked of a program can tell it from what is read back of it.
-/

namespace SceneScript

open SceneScript.Text

set_option autoImplicit false

namespace NameSet

/-- The array has the names of the set and no other, in some order. -/
def Written (set : NameSet) (form : Json) : Prop :=
  ∃ names, (∀ name, name ∈ names ↔ name ∈ set.names) ∧ form = .strings names

theorem eq_of_names {set other : NameSet} (same : set.names = other.names) : set = other := by
  cases set
  cases other
  cases same
  rfl

theorem ofList_eq {set : NameSet} {names : List String}
    (same : ∀ name, name ∈ names ↔ name ∈ set.names) : ofList names = set := by
  have members : ∀ name, name ∈ (ofList names).names ↔ name ∈ set.names := by
    intro name
    rw [← same, ← contains_ofList names name, contains, List.contains_iff_mem]
  apply eq_of_names
  exact (ofList names).ascending.eq_of_mem_iff set.ascending members

theorem ofJson?_written {set : NameSet} {form : Json} (written : set.Written form) :
    ofJson? form = some set := by
  obtain ⟨names, same, rfl⟩ := written
  have strings : (names.map Json.str).mapM Json.str? = some names :=
    mapM_map_eq_some fun _ _ => rfl
  simp [ofJson?, Json.strings?, Json.strings, strings, ofList_eq same]

theorem written_toJson (set : NameSet) : set.Written set.toJson :=
  ⟨set.names, fun _ => Iff.rfl, rfl⟩

end NameSet

namespace GameState

def Written (game : GameState) (form : Json) : Prop :=
  ∃ flags items, game.flags.Written flags ∧ game.inventory.Written items ∧
    form = .obj [("flags", flags), ("inventory", items)]

theorem ofJson?_written {game : GameState} {form : Json} (written : game.Written form) :
    ofJson? form = some game := by
  obtain ⟨flags, items, ofFlags, ofItems, rfl⟩ := written
  have fields : Json.fields? ["flags", "inventory"]
      (.obj [("flags", flags), ("inventory", items)]) = some [flags, items] := rfl
  simp [ofJson?, fields, NameSet.ofJson?_written ofFlags, NameSet.ofJson?_written ofItems]

theorem written_toJson (game : GameState) : game.Written game.toJson :=
  ⟨_, _, game.flags.written_toJson, game.inventory.written_toJson, rfl⟩

end GameState

theorem Style.ofJson?_toJson (style : Style) : ofJson? style.toJson = some style := by
  have fields : style.toJson.fields? ["background", "foreground", "font", "font_size"] =
      some [.str style.background, .str style.foreground, .str style.font,
        .int style.fontSize.toInt] := rfl
  simp [ofJson?, fields]

namespace Waiting

def Fits : Waiting → Prop
  | nothing => True
  | choice count => count < unsignedLimit

theorem ofJson?_toJson (waiting : Waiting) (fits : waiting.Fits) :
    ofJson? waiting.toJson = some waiting := by
  cases waiting with
  | nothing => rfl
  | choice count =>
      have fields : Json.namedFields? ["choice_count"] (.obj [("choice_count", .nat count)]) =
          some [.nat count] := rfl
      simp [toJson, ofJson?, fields, Json.word?_nat fits]

theorem fits_of_ofJson? (json : Json) (waiting : Waiting) (read : ofJson? json = some waiting) :
    waiting.Fits := by
  unfold ofJson? at read
  split at read
  · cases read
    trivial
  · cases read
    trivial
  · split at read
    · obtain ⟨count, word, rfl⟩ := Option.map_eq_some_iff.1 read
      exact Json.lt_of_word? word
    · cases read
  · cases read

end Waiting

namespace State

def Fits (state : State) : Prop :=
  state.waiting.Fits

def Written (state : State) (form : Json) : Prop :=
  ∃ game, state.game.Written game ∧
    form = .obj [("game", game), ("style", state.style.toJson),
      ("current_scene", .option .str state.scene), ("waiting", state.waiting.toJson)]

theorem sceneOfJson?_option (scene : Option String) :
    sceneOfJson? (.option .str scene) = some scene := by
  cases scene <;> rfl

theorem ofJson?_written (state : State) (form : Json) (fits : state.Fits)
    (written : state.Written form) : ofJson? form = some state := by
  obtain ⟨game, ofGame, rfl⟩ := written
  have fields : fieldsOfJson? (.obj [("game", game), ("style", state.style.toJson),
      ("current_scene", .option .str state.scene), ("waiting", state.waiting.toJson)]) =
        some [game, state.style.toJson, .option .str state.scene, state.waiting.toJson] := rfl
  simp [ofJson?, fields, GameState.ofJson?_written ofGame, Style.ofJson?_toJson,
    sceneOfJson?_option, Waiting.ofJson?_toJson state.waiting fits]

theorem fits_of_ofJson? (json : Json) (state : State) (read : ofJson? json = some state) :
    state.Fits := by
  unfold ofJson? at read
  split at read
  · simp only [Option.bind_eq_bind, Option.bind_eq_some_iff] at read
    obtain ⟨game, -, style, -, scene, -, waiting, waits, same⟩ := read
    cases same
    exact Waiting.fits_of_ofJson? _ waiting waits
  · cases read

theorem written_toJson (state : State) : state.Written state.toJson :=
  ⟨_, state.game.written_toJson, rfl⟩

end State

namespace Command

theorem labelOfJson?_labelToJson (label : String) : labelOfJson? (labelToJson label) = some label :=
  rfl

theorem ofJson?_toJson (command : Command) : ofJson? command.toJson = some command := by
  cases command with
  | showText content => rfl
  | showImage path => rfl
  | clearTransient => rfl
  | applyStyle style =>
      have fields : Json.namedFields? ["style"] (.obj [("style", style.toJson)]) =
          some [style.toJson] := rfl
      simp [toJson, ofJson?, fields, Style.ofJson?_toJson]
  | presentChoices labels =>
      have fields : Json.namedFields? ["choices"]
          (.obj [("choices", .arr (labels.map labelToJson))]) =
            some [.arr (labels.map labelToJson)] := rfl
      have read : (labels.map labelToJson).mapM labelOfJson? = some labels :=
        mapM_map_eq_some fun label _ => labelOfJson?_labelToJson label
      simp [toJson, ofJson?, fields, read]

end Command

namespace Input

def Fits : Input → Prop
  | choose index => index < unsignedLimit

theorem ofJson?_toJson (input : Input) (fits : input.Fits) :
    ofJson? input.toJson = some input := by
  obtain ⟨index⟩ := input
  have fields : Json.namedFields? ["index"] (.obj [("index", .nat index)]) =
      some [.nat index] := rfl
  simp [toJson, ofJson?, fields, Json.word?_nat fits]

theorem fits_of_ofJson? (json : Json) (input : Input) (read : ofJson? json = some input) :
    input.Fits := by
  unfold ofJson? at read
  split at read
  · split at read
    · obtain ⟨index, word, rfl⟩ := Option.map_eq_some_iff.1 read
      exact Json.lt_of_word? word
    · cases read
  · cases read

end Input

/--
Whatever is written of a script, of a story or of what passes between it and its player is read back
as the same value, if its counts and line numbers are unsigned 64-bit words; of a program this holds
with its index, which is not written. Whatever reads is such a value, and writing it and reading it
again changes nothing; sets may be written in any order of their members. A program that is read has
distinct ids, also if they were repeated: it is what inserting the scenes one by one gives. So a
program that was written and read again answers every sequence of starts and ticks as before.
-/
theorem codecs_lossless :
    Lossless (fun _ => True) (Condition.toJson · = ·) Condition.ofJson? ∧
    Lossless (fun _ => True) (StyleChange.toJson · = ·) StyleChange.ofJson? ∧
    Lossless Statement.Fits (Statement.toJson · = ·) Statement.ofJson? ∧
    Lossless Scene.Fits (Scene.toJson · = ·) Scene.ofJson? ∧
    Lossless Program.Fits (Program.toJson · = ·) Program.ofJson? ∧
    Lossless (fun _ => True) (Command.toJson · = ·) Command.ofJson? ∧
    Lossless Input.Fits (Input.toJson · = ·) Input.ofJson? ∧
    Lossless Waiting.Fits (Waiting.toJson · = ·) Waiting.ofJson? ∧
    Lossless (fun _ => True) (Style.toJson · = ·) Style.ofJson? ∧
    Lossless (fun _ => True) GameState.Written GameState.ofJson? ∧
    (∀ game : GameState, game.Written game.toJson) ∧
    Lossless State.Fits State.Written State.ofJson? ∧
    (∀ state : State, state.Written state.toJson) ∧
    (∀ json program, Program.ofJson? json = some program → program.ids.Nodup) ∧
    (∀ scenes : List Scene, (∀ scene ∈ scenes, scene.Fits) →
      Program.ofJson? (.obj [("scenes", .arr (scenes.map Scene.toJson))]) =
        some (Program.ofScenes scenes)) ∧
    (∀ program : Program, program.Fits → ∃ restored,
      Program.ofJson? program.toJson = some restored ∧
      restored.index = program.index ∧
      ∀ requests, (Session.new restored).outcomes requests =
        (Session.new program).outcomes requests) := by
  refine ⟨.of_all Condition.ofJson?_toJson, .of_all StyleChange.ofJson?_toJson,
    .of_fits Statement.ofJson?_toJson Statement.fits_of_ofJson?,
    .of_fits Scene.ofJson?_toJson Scene.fits_of_ofJson?,
    .of_fits Program.ofJson?_toJson Program.fits_of_ofJson?,
    .of_all Command.ofJson?_toJson, .of_fits Input.ofJson?_toJson Input.fits_of_ofJson?,
    .of_fits Waiting.ofJson?_toJson Waiting.fits_of_ofJson?, .of_all Style.ofJson?_toJson,
    .of_forms (fun _ _ _ => GameState.ofJson?_written) fun _ _ _ => trivial,
    GameState.written_toJson, .of_forms State.ofJson?_written State.fits_of_ofJson?,
    State.written_toJson, fun _ program _ => program.nodup_ids,
    fun _ => Program.ofJson?_scenes, ?_⟩
  intro program fits
  exact ⟨program, Program.ofJson?_toJson program fits, rfl, fun _ => rfl⟩

end SceneScript
