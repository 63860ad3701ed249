import Mathlib.Data.List.Nodup
import SceneScript.Script.Program

/-!
# The index of a program

Looking an id up finds the scene that has it. A fresh id is one that no scene has, and scenes of
distinct ids that are inserted one by one stay in their order.
-/

namespace SceneScript.Program

set_option autoImplicit false

variable {program : Program} {scene other : Scene} {id : String} {position : Nat}

theorem index_eq_none_iff : program.index[id]? = none ↔ id ∉ program.ids := by
  constructor
  · intro missing member
    obtain ⟨scene, inside, rfl⟩ := List.mem_map.1 member
    obtain ⟨position, held⟩ := List.getElem?_of_mem inside
    have found := (program.indexed scene.id position).2 (by simp [← Array.getElem?_toList, held])
    rw [missing] at found
    cases found
  · intro absent
    cases found : program.index[id]? with
    | none => rfl
    | some position =>
        obtain ⟨scene, held, same⟩ := program.indexed.exists_scene found
        have inside : scene ∈ program.scenes.toList := by
          rw [← Array.getElem?_toList] at held
          exact List.mem_of_getElem? held
        exact absurd (List.mem_map.2 ⟨scene, inside, same⟩) absent

theorem index_eq_some_iff :
    program.index[id]? = some position ↔ program.ids[position]? = some id := by
  rw [program.indexed, ids, List.getElem?_map, Array.getElem?_toList]

theorem nodup_ids (program : Program) : program.ids.Nodup := by
  rw [List.nodup_iff_getElem?_ne_getElem?]
  intro first second before inside same
  have known : program.ids[second]? = some (program.ids.get ⟨second, inside⟩) :=
    List.getElem?_eq_getElem inside
  have earlier := index_eq_some_iff.2 (same.trans known)
  rw [index_eq_some_iff.2 known, Option.some.injEq] at earlier
  omega

theorem position_eq {first second : Nat} (held : program.scenes[first]? = some scene)
    (kept : program.scenes[second]? = some other) (same : scene.id = other.id) :
    first = second := by
  have found := (program.indexed scene.id first).2 (by simp [held])
  have again := (program.indexed scene.id second).2 (by simp [kept, same])
  rw [found, Option.some.injEq] at again
  exact again

theorem contains_iff_mem_ids : program.contains id = true ↔ id ∈ program.ids := by
  rw [contains, Std.TreeMap.contains_eq_isSome_getElem?, Option.isSome_iff_ne_none, ne_eq,
    index_eq_none_iff, not_not]

theorem scene?_eq_some_iff :
    program.scene? id = some scene ↔ scene ∈ program.scenes ∧ scene.id = id := by
  rw [scene?, Option.bind_eq_some_iff]
  constructor
  · rintro ⟨position, found, held⟩
    have named := (program.indexed id position).1 found
    rw [held, Option.map_some, Option.some.injEq] at named
    exact ⟨Array.mem_of_getElem? held, named⟩
  · rintro ⟨member, rfl⟩
    obtain ⟨position, held⟩ := Array.getElem?_of_mem member
    exact ⟨position, (program.indexed scene.id position).2 (by rw [held]; rfl), held⟩

theorem contains_eq_isSome (program : Program) (id : String) :
    program.contains id = (program.scene? id).isSome := by
  rw [Bool.eq_iff_iff, contains_iff_mem_ids, Option.isSome_iff_exists, ids]
  simp only [scene?_eq_some_iff, List.mem_map, Array.mem_toList_iff]

theorem scenes_foldl {scenes : List Scene}
    (distinct : (program.ids ++ scenes.map Scene.id).Nodup) :
    (scenes.foldl (fun program scene => (program.insert scene).1) program).scenes.toList =
      program.scenes.toList ++ scenes := by
  induction scenes generalizing program with
  | nil => simp
  | cons scene rest ih =>
      have fresh : scene.id ∉ program.ids := by
        intro member
        exact (List.nodup_append.1 distinct).2.2 _ member _ (by simp) rfl
      have pushed : (program.insert scene).1.scenes = program.scenes.push scene :=
        scenes_insert_of_new (index_eq_none_iff.2 fresh)
      rw [List.foldl_cons, ih (by simpa [ids, pushed] using distinct), pushed]
      simp

theorem scenes_ofScenes {scenes : List Scene} (distinct : (scenes.map Scene.id).Nodup) :
    (ofScenes scenes).scenes.toList = scenes :=
  scenes_foldl (by simpa [ids, empty] using distinct)

theorem index_eq_of_ids {program other : Program} (same : program.ids = other.ids) (id : String) :
    program.index[id]? = other.index[id]? := by
  apply Option.ext
  intro position
  rw [index_eq_some_iff, index_eq_some_iff, same]

end SceneScript.Program
