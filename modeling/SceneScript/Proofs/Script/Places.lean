import SceneScript.Script.Statement

/-!
# Places of statements

A statement has a place in its block: its position, or the place of the statement that it is inside
of, followed by the number of the part that holds it and by its place there. In the lexicographic
order of places a statement comes before those inside it and these before the ones behind it. The
walk through a block meets every place once, in this order.
-/

namespace SceneScript

set_option autoImplicit false

/-- The blocks inside a statement, in the order in which they are written. -/
def Statement.parts : Statement → List Block
  | .choice _ body => [body]
  | .branch _ thenBody elseBody => [thenBody, elseBody]
  | _ => []

/-- The statement at a place, with the statements behind it in its own block. -/
def Block.at? (block : List Statement) : List Nat → Option Visit
  | [] => none
  | [position] => block[position]?.map fun statement => ⟨statement, block.drop (position + 1)⟩
  | position :: part :: place =>
    (block[position]?.bind fun statement => statement.parts[part]?).bind fun body =>
      Block.at? body place

def Statement.inside? (statement : Statement) : List Nat → Option Visit
  | [] => none
  | part :: place => statement.parts[part]?.bind fun body => Block.at? body place

mutual

def Statement.innerPlaces : Statement → List (List Nat)
  | .choice _ body => (Block.places body).map (0 :: ·)
  | .branch _ thenBody elseBody =>
    (Block.places thenBody).map (0 :: ·) ++ (Block.places elseBody).map (1 :: ·)
  | _ => []

def Block.places : List Statement → List (List Nat)
  | [] => []
  | statement :: rest =>
    [0] :: (statement.innerPlaces.map (0 :: ·) ++ (Block.places rest).map (List.modifyHead (· + 1)))

end

section

variable (statement : Statement) (rest : List Statement) (place : List Nat)

theorem Block.at?_inside (further : place ≠ []) :
    Block.at? (statement :: rest) (0 :: place) = statement.inside? place := by
  cases place with
  | nil => exact absurd rfl further
  | cons part place => rfl

theorem Block.at?_next :
    Block.at? (statement :: rest) (List.modifyHead (· + 1) place) = Block.at? rest place := by
  cases place with
  | nil => rfl
  | cons position place => cases place <;> simp [Block.at?]

end

theorem Statement.ne_nil_of_mem_innerPlaces {statement : Statement} {place : List Nat}
    (member : place ∈ statement.innerPlaces) : place ≠ [] := by
  cases statement with
  | act action => cases member
  | go target line => cases member
  | choice label body =>
      obtain ⟨inner, -, rfl⟩ := List.mem_map.1 member
      exact List.cons_ne_nil _ _
  | branch condition thenBody elseBody =>
      rcases List.mem_append.1 member with first | second
      · obtain ⟨inner, -, rfl⟩ := List.mem_map.1 first
        exact List.cons_ne_nil _ _
      · obtain ⟨inner, -, rfl⟩ := List.mem_map.1 second
        exact List.cons_ne_nil _ _

mutual

theorem Statement.map_inside?_innerPlaces (statement : Statement) :
    statement.innerPlaces.map statement.inside? = statement.innerVisits.map some := by
  cases statement with
  | act action => rfl
  | go target line => rfl
  | choice label body =>
      rw [Statement.innerPlaces, Statement.innerVisits, List.map_map, ← Block.map_at?_places body]
      rfl
  | branch condition thenBody elseBody =>
      rw [Statement.innerPlaces, Statement.innerVisits, List.map_append, List.map_append,
        List.map_map, List.map_map, ← Block.map_at?_places thenBody,
        ← Block.map_at?_places elseBody]
      rfl

/-- The walk meets one place after the other. -/
theorem Block.map_at?_places (block : List Statement) :
    (Block.places block).map (Block.at? block) = (Block.visits block).map some := by
  cases block with
  | nil => rfl
  | cons statement rest =>
      have inner := Statement.map_inside?_innerPlaces statement
      have later := Block.map_at?_places rest
      have within : ∀ place ∈ statement.innerPlaces,
          Block.at? (statement :: rest) (0 :: place) = statement.inside? place := by
        intro place member
        exact Block.at?_inside statement rest place (Statement.ne_nil_of_mem_innerPlaces member)
      rw [Block.places, Block.visits, List.map_cons, List.map_cons, List.map_append,
        List.map_append, List.map_map, List.map_map, ← inner, ← later]
      congr 2
      · exact List.map_congr_left within
      · exact List.map_congr_left fun place _ => Block.at?_next statement rest place

end

theorem Block.exists_visit {block : List Statement} {place : List Nat}
    (member : place ∈ Block.places block) : ∃ visit, Block.at? block place = some visit := by
  have met := List.mem_map_of_mem (f := Block.at? block) member
  rw [Block.map_at?_places] at met
  obtain ⟨visit, -, found⟩ := List.mem_map.1 met
  exact ⟨visit, found.symm⟩

theorem Block.ne_nil_of_mem_places {block : List Statement} {place : List Nat}
    (member : place ∈ Block.places block) : place ≠ [] := by
  rintro rfl
  obtain ⟨visit, found⟩ := Block.exists_visit member
  cases found

mutual

theorem Statement.mem_innerPlaces {statement : Statement} {place : List Nat} {visit : Visit}
    (found : statement.inside? place = some visit) : place ∈ statement.innerPlaces := by
  cases place with
  | nil => cases found
  | cons part place =>
      obtain ⟨body, here, inner⟩ := Option.bind_eq_some_iff.1 found
      cases statement with
      | act action => cases here
      | go target line => cases here
      | choice label only =>
          have first : part = 0 := by
            have bound := (List.getElem?_eq_some_iff.1 here).1
            simpa [Statement.parts] using bound
          subst first
          cases here
          exact List.mem_map_of_mem (Block.mem_places inner)
      | branch condition thenBody elseBody =>
          match part, here with
          | 0, here =>
              cases here
              exact List.mem_append_left _ (List.mem_map_of_mem (Block.mem_places inner))
          | 1, here =>
              cases here
              exact List.mem_append_right _ (List.mem_map_of_mem (Block.mem_places inner))

theorem Block.mem_places {block : List Statement} {place : List Nat} {visit : Visit}
    (found : Block.at? block place = some visit) : place ∈ Block.places block := by
  cases block with
  | nil =>
      match place, found with
      | [position], found => simp [Block.at?] at found
      | position :: part :: place, found => simp [Block.at?] at found
  | cons statement rest =>
      rw [Block.places, List.mem_cons, List.mem_append]
      match place, found with
      | [0], _ => exact .inl rfl
      | 0 :: part :: place, found =>
          exact .inr (.inl (List.mem_map_of_mem (Statement.mem_innerPlaces found)))
      | (position + 1) :: place, found =>
          have next := Block.at?_next statement rest (position :: place)
          have later := Block.mem_places (next.symm.trans found)
          exact .inr (.inr (List.mem_map.2 ⟨_, later, rfl⟩))

end

theorem cons_lt_cons (head : Nat) {place other : List Nat} (before : place < other) :
    head :: place < head :: other :=
  List.cons_lt_cons_iff.2 (.inr ⟨rfl, before⟩)

theorem modifyHead_lt {place other : List Nat} (before : place < other) :
    place.modifyHead (· + 1) < other.modifyHead (· + 1) := by
  cases other with
  | nil => exact absurd before (List.not_lt_nil place)
  | cons second other =>
      cases place with
      | nil => exact List.nil_lt_cons _ _
      | cons first place =>
          rcases List.cons_lt_cons_iff.1 before with less | ⟨rfl, further⟩
          · exact List.cons_lt_cons_iff.2 (.inl (Nat.succ_lt_succ less))
          · exact cons_lt_cons _ further

theorem zero_lt_modifyHead (place : List Nat) {other : List Nat} (some : other ≠ []) :
    0 :: place < other.modifyHead (· + 1) := by
  obtain ⟨position, rest, rfl⟩ := List.exists_cons_of_ne_nil some
  exact List.cons_lt_cons_iff.2 (.inl (Nat.succ_pos position))

mutual

theorem Statement.ascending_innerPlaces (statement : Statement) :
    statement.innerPlaces.Pairwise (· < ·) := by
  cases statement with
  | act action => exact .nil
  | go target line => exact .nil
  | choice label body => exact (Block.ascending_places body).map _ fun _ _ => cons_lt_cons 0
  | branch condition thenBody elseBody =>
      refine List.pairwise_append.2 ⟨?_, ?_, ?_⟩
      · exact (Block.ascending_places thenBody).map _ fun _ _ => cons_lt_cons 0
      · exact (Block.ascending_places elseBody).map _ fun _ _ => cons_lt_cons 1
      · intro place first other second
        obtain ⟨inner, -, rfl⟩ := List.mem_map.1 first
        obtain ⟨later, -, rfl⟩ := List.mem_map.1 second
        exact List.cons_lt_cons_iff.2 (.inl Nat.zero_lt_one)

/-- The walk goes through the places in ascending order. -/
theorem Block.ascending_places (block : List Statement) :
    (Block.places block).Pairwise (· < ·) := by
  cases block with
  | nil => exact .nil
  | cons statement rest =>
      refine List.pairwise_cons.2 ⟨?_, List.pairwise_append.2 ⟨?_, ?_, ?_⟩⟩
      · intro place member
        rcases List.mem_append.1 member with within | behind
        · obtain ⟨inner, inside, rfl⟩ := List.mem_map.1 within
          obtain ⟨part, further, rfl⟩ :=
            List.exists_cons_of_ne_nil (Statement.ne_nil_of_mem_innerPlaces inside)
          exact cons_lt_cons 0 (List.nil_lt_cons part further)
        · obtain ⟨later, inside, rfl⟩ := List.mem_map.1 behind
          exact zero_lt_modifyHead [] (Block.ne_nil_of_mem_places inside)
      · exact (Statement.ascending_innerPlaces statement).map _ fun _ _ => cons_lt_cons 0
      · exact (Block.ascending_places rest).map _ fun _ _ => modifyHead_lt
      · intro place within other behind
        obtain ⟨inner, -, rfl⟩ := List.mem_map.1 within
        obtain ⟨later, inside, rfl⟩ := List.mem_map.1 behind
        exact zero_lt_modifyHead inner (Block.ne_nil_of_mem_places inside)

end

example : Block.places
    [.choice "on" [.go "a" 1, .go "b" 2], .branch (.literal true) [] [.go "c" 5]] =
    [[0], [0, 0, 0], [0, 0, 1], [1], [1, 1, 0]] := rfl

end SceneScript
