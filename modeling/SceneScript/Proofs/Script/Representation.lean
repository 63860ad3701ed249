import Mathlib.Data.Finset.Card
import SceneScript.Codec.Script
import SceneScript.Proofs.Script.Insertion
import SceneScript.Proofs.Script.Sections

/-!
# What a program is after any insertions

A program that scenes were inserted into is known from the list of these scenes: its ids are those
of the list in the order of their first insertion, and looking an id up gives the last scene of the
list that has it. One insertion keeps this, so it holds of every program that is built by
insertions, and programs are built in no other way, whether they are put together, parsed or
decoded.
-/

namespace SceneScript.Program

set_option autoImplicit false

variable {program : Program}

theorem ids_insert (program : Program) (scene : Scene) :
    (program.insert scene).1.ids =
      if scene.id ∈ program.ids then program.ids else program.ids ++ [scene.id] := by
  cases found : program.index[scene.id]? with
  | none =>
      rw [if_neg (index_eq_none_iff.1 found), ids, scenes_insert_of_new found]
      simp [ids]
  | some position =>
      have held := index_eq_some_iff.1 found
      rw [if_pos (List.mem_of_getElem? held), ids, scenes_insert_of_known found]
      obtain ⟨inside, named⟩ := List.getElem?_eq_some_iff.1 held
      have same : program.ids.set position scene.id = program.ids := by
        rw [← named, List.set_getElem_self]
      simpa [ids] using same

theorem scene?_insert (program : Program) (scene : Scene) (id : String) :
    (program.insert scene).1.scene? id =
      if scene.id = id then some scene else program.scene? id := by
  apply Option.ext
  intro found
  rw [scene?_eq_some_iff, mem_insert]
  split
  · rename_i same
    rw [Option.some.injEq, eq_comm (a := scene), same]
    exact ⟨fun ⟨kept, named⟩ => kept.resolve_right fun other => other.2 named,
      fun here => ⟨.inl here, by rw [here, same]⟩⟩
  · rename_i differ
    rw [scene?_eq_some_iff]
    constructor
    · rintro ⟨rfl | ⟨member, -⟩, named⟩
      · exact absurd named differ
      · exact ⟨member, named⟩
    · rintro ⟨member, rfl⟩
      exact ⟨.inr ⟨member, Ne.symm differ⟩, rfl⟩

theorem eraseDups_concat (names : List String) (name : String) :
    (names ++ [name]).eraseDups =
      if name ∈ names then names.eraseDups else names.eraseDups ++ [name] := by
  rw [List.eraseDups_append]
  split
  · rename_i known
    simp [List.removeAll, known]
  · rename_i fresh
    simp [List.removeAll, fresh, List.eraseDups_cons]

/-- The program is what inserting the scenes one by one has to give. -/
structure Records (program : Program) (inserted : List Scene) : Prop where
  order : program.ids = (inserted.map Scene.id).eraseDups
  last : ∀ id, program.scene? id = (inserted.filter fun scene => scene.id = id).getLast?
  rebuilt : ofScenes program.scenes.toList = program

theorem records_empty : Records empty [] where
  order := rfl
  last := fun id => by simp [scene?, empty]
  rebuilt := rfl

theorem records_insert {inserted : List Scene} (records : Records program inserted)
    (scene : Scene) : Records (program.insert scene).1 (inserted ++ [scene]) where
  order := by
    rw [ids_insert, records.order, List.map_append]
    simp only [List.mem_eraseDups]
    exact (eraseDups_concat _ _).symm
  last := by
    intro id
    rw [scene?_insert, records.last, List.filter_append, List.getLast?_append]
    by_cases same : scene.id = id <;> simp [same]
  rebuilt := by
    have whole : ofScenes (program.insert scene).1.scenes.toList =
        ((ofScenes program.scenes.toList).insert scene).1 :=
      extend_insert empty program scene
    rw [whole, records.rebuilt]

theorem records_extend {inserted : List Scene} (records : Records program inserted)
    (scenes : List Scene) : Records (program.extend scenes) (inserted ++ scenes) := by
  induction scenes generalizing program inserted with
  | nil =>
      rw [List.append_nil]
      exact records
  | cons scene rest ih =>
      have later := ih (records_insert records scene)
      rw [List.append_assoc] at later
      exact later

theorem exists_inserted_of_ofJson {value : Json} (decoded : ofJson? value = some program) :
    ∃ inserted, program = empty.extend inserted := by
  unfold ofJson? at decoded
  split at decoded
  · obtain ⟨inserted, -, rfl⟩ := Option.map_eq_some_iff.1 decoded
    exact ⟨inserted, rfl⟩
  · cases decoded

/--
After any insertions into the empty program: the index maps exactly the ids of the scenes, each to
the position of its scene, so no look-up leaves the scenes; the ids are distinct, and they are the
inserted ids in the order of their first insertion, so there are as many scenes as distinct ids;
looking up an id gives the scene of this id that was inserted last, if there was one, and `contains`
tells whether there was; a further insertion reports a replacement exactly if its id was inserted
before; and inserting the scenes of the program into an empty one gives the same program, index
included. Every program that is put together from scenes, parsed or decoded is built by insertions.
-/
theorem extend_represents (inserted : List Scene) :
    let program := empty.extend inserted
    (∀ (id : String) (position : Nat), program.index[id]? = some position ↔
      program.scenes[position]?.map Scene.id = some id) ∧
    (∀ (id : String) (position : Nat), program.index[id]? = some position →
      position < program.scenes.size) ∧
    program.ids.Nodup ∧
    program.ids = (inserted.map Scene.id).eraseDups ∧
    program.scenes.size = (inserted.map Scene.id).toFinset.card ∧
    (∀ id, program.scene? id = (inserted.filter fun scene => scene.id = id).getLast?) ∧
    (∀ id, program.contains id = (program.scene? id).isSome) ∧
    (∀ scene, (program.insert scene).2 = true ↔ scene.id ∈ inserted.map Scene.id) ∧
    ofScenes program.scenes.toList = program ∧
    ofScenes inserted = program ∧
    (∀ text parsed, (parse text).result = .ok parsed → ∃ scenes, parsed = empty.extend scenes) ∧
    (∀ value decoded, ofJson? value = some decoded → ∃ scenes, decoded = empty.extend scenes) := by
  intro program
  have records : Records program inserted := records_extend records_empty inserted
  have distinct := program.nodup_ids
  refine ⟨program.indexed, ?_, distinct, records.order, ?_, records.last, program.contains_eq_isSome,
    ?_, records.rebuilt, rfl, ?_, ?_⟩
  · intro id position found
    obtain ⟨scene, held, -⟩ := program.indexed.exists_scene found
    exact (Array.getElem?_eq_some_iff.1 held).1
  · have same : (inserted.map Scene.id).toFinset = program.ids.toFinset := by
      ext id
      rw [records.order, List.mem_toFinset, List.mem_toFinset, List.mem_eraseDups]
    rw [same, List.toFinset_card_of_nodup distinct, ids, List.length_map, Array.length_toList]
  · intro scene
    rw [replaced_insert, ← Std.TreeMap.contains_eq_isSome_getElem?, ← contains,
      contains_iff_mem_ids, records.order, List.mem_eraseDups]
  · intro text parsed read
    obtain ⟨scenes, -, built⟩ := exists_scenes read
    exact ⟨scenes, built.symm⟩
  · intro value decoded read
    exact exists_inserted_of_ofJson read

end SceneScript.Program
