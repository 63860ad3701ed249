import SceneScript.Proofs.Script.Index

/-!
# Inserting scenes one after another

A scene that is inserted replaces the one of its id and leaves the others where they are. So only
the last scene of each id counts, and inserting the scenes of a finished program has the same effect
as inserting all the scenes that the program was made from.
-/

namespace SceneScript.Program

set_option autoImplicit false

/-- The program with further scenes, inserted in order. -/
def extend (program : Program) (scenes : List Scene) : Program :=
  scenes.foldl (fun program scene => (program.insert scene).1) program

theorem extend_cons (program : Program) (scene : Scene) (rest : List Scene) :
    program.extend (scene :: rest) = (program.insert scene).1.extend rest :=
  rfl

theorem extend_append (program : Program) (scenes others : List Scene) :
    program.extend (scenes ++ others) = (program.extend scenes).extend others :=
  List.foldl_append

section

variable {program : Program} {scene other : Scene} {id : String} {position : Nat}

theorem index_insert_of_ne (program : Program) (differ : other.id ≠ id) :
    (program.insert other).1.index[id]? = program.index[id]? := by
  cases found : program.index[other.id]? with
  | some position => rw [index_insert_of_known found]
  | none =>
      rw [index_insert_of_new found]
      simp [Std.TreeMap.getElem?_insert, differ]

/-- A scene is found where the earlier one of its id was, or behind all. -/
theorem index_insert_self (program : Program) (scene : Scene) :
    (program.insert scene).1.index[scene.id]? =
      some (program.index[scene.id]?.getD program.scenes.size) := by
  cases found : program.index[scene.id]? with
  | some position =>
      rw [index_insert_of_known found, found]
      rfl
  | none =>
      rw [index_insert_of_new found]
      exact Std.TreeMap.getElem?_insert_self

theorem isSome_index_insert (program : Program) (scene : Scene) (id : String) :
    (program.insert scene).1.index[id]?.isSome = true ↔
      id = scene.id ∨ program.index[id]?.isSome = true := by
  by_cases same : scene.id = id
  · simp [← same, index_insert_self]
  · rw [index_insert_of_ne program same]
    simp [Ne.symm same]

theorem insert_insert_of_eq (same : scene.id = other.id) :
    (program.insert scene).1.insert other = ((program.insert other).1, true) := by
  have placed := index_insert_self program scene
  rw [same] at placed
  have replaced : ((program.insert scene).1.insert other).2 = true := by
    rw [replaced_insert, placed]
    rfl
  refine Prod.ext (Program.ext ?_ ?_) replaced
  · rw [scenes_insert_of_known placed]
    cases found : program.index[other.id]? with
    | some position =>
        rw [scenes_insert_of_known found, scenes_insert_of_known (same ▸ found)]
        simp
    | none =>
        rw [scenes_insert_of_new found, scenes_insert_of_new (same ▸ found)]
        apply Array.ext_getElem?
        intro index
        rw [Option.getD_none, Array.getElem?_setIfInBounds, Array.getElem?_push,
          Array.getElem?_push, Array.size_push]
        by_cases last : program.scenes.size = index
        · rw [if_pos last, if_pos (Nat.lt_succ_self _), if_pos last.symm]
        · rw [if_neg last, if_neg (Ne.symm last), if_neg (Ne.symm last)]
  · rw [index_insert_of_known placed]
    cases found : program.index[other.id]? with
    | some position => rw [index_insert_of_known found, index_insert_of_known (same ▸ found)]
    | none => rw [index_insert_of_new found, index_insert_of_new (same ▸ found), same]

theorem insert_comm (known : program.index[scene.id]? = some position)
    (differ : other.id ≠ scene.id) :
    ((program.insert other).1.insert scene).1 = ((program.insert scene).1.insert other).1 := by
  have kept := (index_insert_of_ne program differ).trans known
  have before := index_insert_of_ne program (Ne.symm differ)
  obtain ⟨old, held, named⟩ := program.indexed.exists_scene known
  have inside : position < program.scenes.size := (Array.getElem?_eq_some_iff.1 held).1
  cases found : program.index[other.id]? with
  | some place =>
      have apart : place ≠ position := by
        rintro rfl
        obtain ⟨also, again, called⟩ := program.indexed.exists_scene found
        rw [held, Option.some.injEq] at again
        rw [again, called] at named
        exact differ named
      rw [found] at before
      apply Program.ext
      · rw [scenes_insert_of_known kept, scenes_insert_of_known before,
          scenes_insert_of_known found, scenes_insert_of_known known]
        apply Array.ext_getElem?
        intro index
        simp only [Array.getElem?_setIfInBounds, Array.size_setIfInBounds]
        grind
      · rw [index_insert_of_known kept, index_insert_of_known before,
          index_insert_of_known found, index_insert_of_known known]
  | none =>
      rw [found] at before
      apply Program.ext
      · rw [scenes_insert_of_known kept, scenes_insert_of_new before,
          scenes_insert_of_new found, scenes_insert_of_known known]
        apply Array.ext_getElem?
        intro index
        simp only [Array.getElem?_setIfInBounds, Array.getElem?_push, Array.size_push,
          Array.size_setIfInBounds]
        grind
      · rw [index_insert_of_known kept, index_insert_of_new before, index_insert_of_new found,
          index_insert_of_known known, scenes_insert_of_known known, Array.size_setIfInBounds]

theorem mem_insert :
    other ∈ (program.insert scene).1.scenes ↔
      other = scene ∨ other ∈ program.scenes ∧ other.id ≠ scene.id := by
  cases found : program.index[scene.id]? with
  | some position =>
      obtain ⟨old, held, named⟩ := program.indexed.exists_scene found
      have inside : position < program.scenes.size := (Array.getElem?_eq_some_iff.1 held).1
      rw [scenes_insert_of_known found]
      simp only [Array.mem_iff_getElem?, Array.getElem?_setIfInBounds]
      constructor
      · rintro ⟨place, found⟩
        by_cases here : position = place
        · rw [if_pos here, if_pos inside, Option.some.injEq] at found
          exact Or.inl found.symm
        · rw [if_neg here] at found
          refine Or.inr ⟨⟨place, found⟩, fun same => here ?_⟩
          exact position_eq held found (named.trans same.symm)
      · rintro (rfl | ⟨⟨place, found⟩, differ⟩)
        · exact ⟨position, by rw [if_pos rfl, if_pos inside]⟩
        · refine ⟨place, ?_⟩
          rw [if_neg, found]
          rintro rfl
          rw [held, Option.some.injEq] at found
          exact differ (found ▸ named)
  | none =>
      have fresh := index_eq_none_iff.1 found
      rw [scenes_insert_of_new found, Array.mem_push]
      constructor
      · rintro (member | same)
        · refine Or.inr ⟨member, fun same => fresh ?_⟩
          exact List.mem_map.2 ⟨other, Array.mem_toList_iff.2 member, same⟩
        · exact Or.inl same
      · rintro (same | ⟨member, -⟩)
        · exact Or.inr same
        · exact Or.inl member

end

/-- A scene is left exactly if no scene of its id was inserted behind it. -/
theorem mem_extend {program : Program} {scenes : List Scene} {scene : Scene} :
    scene ∈ (program.extend scenes).scenes ↔
      (∃ front behind, scenes = front ++ scene :: behind ∧ ∀ later ∈ behind, later.id ≠ scene.id) ∨
      scene ∈ program.scenes ∧ ∀ later ∈ scenes, later.id ≠ scene.id := by
  induction scenes generalizing program with
  | nil => simp [extend]
  | cons first rest ih =>
      rw [extend_cons, ih, mem_insert]
      constructor
      · rintro (⟨front, behind, rfl, last⟩ | ⟨rfl | ⟨member, differ⟩, last⟩)
        · exact Or.inl ⟨first :: front, behind, rfl, last⟩
        · exact Or.inl ⟨[], rest, rfl, last⟩
        · exact Or.inr ⟨member, List.forall_mem_cons.2 ⟨Ne.symm differ, last⟩⟩
      · rintro (⟨front, behind, split, last⟩ | ⟨member, last⟩)
        · cases front with
          | nil =>
              obtain ⟨rfl, rfl⟩ := List.cons.inj split
              exact Or.inr ⟨Or.inl rfl, last⟩
          | cons head front =>
              obtain ⟨rfl, rfl⟩ := List.cons.inj split
              exact Or.inl ⟨front, behind, rfl, last⟩
        · obtain ⟨differ, later⟩ := List.forall_mem_cons.1 last
          exact Or.inr ⟨Or.inr ⟨member, Ne.symm differ⟩, later⟩

theorem insert_extend {program : Program} {scene : Scene} {position : Nat}
    (known : program.index[scene.id]? = some position) {others : List Scene}
    (differ : ∀ other ∈ others, other.id ≠ scene.id) :
    ((program.extend others).insert scene).1 = (program.insert scene).1.extend others := by
  induction others generalizing program with
  | nil => rfl
  | cons other rest ih =>
      obtain ⟨first, later⟩ := List.forall_mem_cons.1 differ
      have still := (index_insert_of_ne program first).trans known
      rw [extend_cons, extend_cons, ih still later, insert_comm known first]

-- Both sides put the scene where the earlier one of its id stands in the base, or behind all.
theorem extend_insert (program base : Program) (scene : Scene) :
    program.extend (base.insert scene).1.scenes.toList =
      ((program.extend base.scenes.toList).insert scene).1 := by
  cases found : base.index[scene.id]? with
  | none =>
      rw [scenes_insert_of_new found, Array.toList_push, extend_append]
      rfl
  | some position =>
      obtain ⟨old, held, named⟩ := base.indexed.exists_scene found
      obtain ⟨bound, same⟩ := Array.getElem?_eq_some_iff.1 held
      have inside : position < base.scenes.toList.length := bound
      have split : base.scenes.toList = base.scenes.toList.take position ++
          old :: base.scenes.toList.drop (position + 1) := by
        rw [← same, ← Array.getElem_toList, ← List.drop_eq_getElem_cons, List.take_append_drop]
      have differ : ∀ other ∈ base.scenes.toList.drop (position + 1), other.id ≠ scene.id := by
        intro other member again
        obtain ⟨place, reached⟩ := List.getElem?_of_mem member
        rw [List.getElem?_drop, Array.getElem?_toList] at reached
        have here := position_eq held reached (named.trans again.symm)
        omega
      have known := index_insert_self (program.extend (base.scenes.toList.take position)) old
      rw [named] at known
      have whole := congrArg program.extend split
      rw [extend_append, extend_cons] at whole
      rw [whole, insert_extend known differ, insert_insert_of_eq named,
        scenes_insert_of_known found, Array.toList_setIfInBounds, List.set_eq_take_append_cons_drop,
        if_pos inside, extend_append, extend_cons]

theorem extend_extend (program base : Program) (scenes : List Scene) :
    program.extend (base.extend scenes).scenes.toList =
      (program.extend base.scenes.toList).extend scenes := by
  induction scenes generalizing base with
  | nil => rfl
  | cons scene rest ih =>
      rw [extend_cons, ih, extend_insert, extend_cons]

end SceneScript.Program
