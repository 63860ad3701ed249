import Std.Data.TreeMap
import SceneScript.Script.Statement

/-!
# Programs

The scenes of a story in the order of their first definition, with an index from their ids to their
positions. A scene that is defined again takes the place of the earlier one. Scenes and index are
kept together: a program carries the proof that its index is right.
-/

namespace SceneScript

set_option autoImplicit false

/-- The index maps exactly the ids of the scenes, each to the position of its scene. -/
def Indexes (index : Std.TreeMap String Nat) (scenes : Array Scene) : Prop :=
  ∀ (id : String) (position : Nat),
    index[id]? = some position ↔ scenes[position]?.map Scene.id = some id

namespace Indexes

variable {index : Std.TreeMap String Nat} {scenes : Array Scene} {scene : Scene} {position : Nat}

theorem empty : Indexes ∅ #[] := by
  intro id position
  simp

theorem exists_scene (indexes : Indexes index scenes) {id : String}
    (known : index[id]? = some position) :
    ∃ scene, scenes[position]? = some scene ∧ scene.id = id :=
  Option.map_eq_some_iff.1 ((indexes id position).1 known)

theorem map (indexes : Indexes index scenes) {change : Scene → Scene}
    (keeps : ∀ scene, (change scene).id = scene.id) : Indexes index (scenes.map change) := by
  intro id position
  have same : Scene.id ∘ change = Scene.id := funext keeps
  rw [indexes, Array.getElem?_map, Option.map_map, same]

theorem replace (indexes : Indexes index scenes) (known : index[scene.id]? = some position) :
    Indexes index (scenes.setIfInBounds position scene) := by
  intro id other
  obtain ⟨old, held, named⟩ := indexes.exists_scene known
  have inside : position < scenes.size := (Array.getElem?_eq_some_iff.1 held).1
  rw [indexes, Array.getElem?_setIfInBounds]
  by_cases here : position = other
  · rw [if_pos here, if_pos inside, ← here, held, Option.map_some, Option.map_some, named]
  · rw [if_neg here]

theorem push (indexes : Indexes index scenes) (new : index[scene.id]? = none) :
    Indexes (index.insert scene.id scenes.size) (scenes.push scene) := by
  intro id position
  have fresh : ∀ other : Nat, scenes[other]?.map Scene.id ≠ some scene.id := by
    intro other held
    rw [(indexes scene.id other).2 held] at new
    cases new
  simp only [Std.TreeMap.getElem?_insert, Std.LawfulEqCmp.compare_eq_iff_eq, Array.getElem?_push]
  by_cases here : scene.id = id
  · rw [if_pos here, Option.some.injEq]
    by_cases last : position = scenes.size
    · simp [last, here]
    · rw [if_neg last, ← here]
      exact ⟨fun taken => absurd taken.symm last, fun held => absurd held (fresh position)⟩
  · rw [if_neg here, indexes]
    by_cases last : position = scenes.size
    · simp [last, here]
    · rw [if_neg last]

end Indexes

@[ext]
structure Program where
  scenes : Array Scene
  index : Std.TreeMap String Nat
  indexed : Indexes index scenes

namespace Program

def empty : Program where
  scenes := #[]
  index := ∅
  indexed := .empty

instance : Inhabited Program := ⟨empty⟩

/-- Adds a scene, or replaces the one of the same id; tells which. -/
def insert (program : Program) (scene : Scene) : Program × Bool :=
  match found : program.index[scene.id]? with
  | some position =>
    ({ program with
        scenes := program.scenes.setIfInBounds position scene
        indexed := program.indexed.replace found }, true)
  | none =>
    ({ scenes := program.scenes.push scene
       index := program.index.insert scene.id program.scenes.size
       indexed := program.indexed.push found }, false)

def ofScenes (scenes : List Scene) : Program :=
  scenes.foldl (fun program scene => (program.insert scene).1) empty

def scene? (program : Program) (id : String) : Option Scene :=
  program.index[id]?.bind fun position => program.scenes[position]?

def contains (program : Program) (id : String) : Bool :=
  program.index.contains id

def ids (program : Program) : List String :=
  program.scenes.toList.map Scene.id

section

variable {program : Program} {scene : Scene} {position : Nat}

theorem scenes_insert_of_known (known : program.index[scene.id]? = some position) :
    (program.insert scene).1.scenes = program.scenes.setIfInBounds position scene := by
  unfold insert
  split <;> simp_all

theorem index_insert_of_known (known : program.index[scene.id]? = some position) :
    (program.insert scene).1.index = program.index := by
  unfold insert
  split <;> simp_all

theorem scenes_insert_of_new (new : program.index[scene.id]? = none) :
    (program.insert scene).1.scenes = program.scenes.push scene := by
  unfold insert
  split <;> simp_all

theorem index_insert_of_new (new : program.index[scene.id]? = none) :
    (program.insert scene).1.index = program.index.insert scene.id program.scenes.size := by
  unfold insert
  split <;> simp_all

theorem replaced_insert (program : Program) (scene : Scene) :
    (program.insert scene).2 = program.index[scene.id]?.isSome := by
  unfold insert
  split <;> simp_all

end

end Program

end SceneScript
