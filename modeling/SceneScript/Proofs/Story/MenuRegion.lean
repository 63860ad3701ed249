import Mathlib.Order.Bounds.Defs
import SceneScript.Proofs.Story.Steps

/-!
# The region of a menu

A menu takes up the longest row of statements, from its position on, that can be merged into it. Each
branch of that region stands for the part that its condition selects. What this leaves is a row of
choices, one for each item of the menu and in the same order, so a block in which the branches are
replaced in this way has the same menu.
-/

namespace SceneScript

set_option autoImplicit false

def Block.OnlyChoices (block : Block) : Prop :=
  block ≠ [] ∧ ∀ statement ∈ block, ∃ label body, statement = .choice label body

namespace Statement

/-- What a statement stands for in a menu: a branch for its selected part, any other for itself. -/
def spliced (owned : String → Bool) : Statement → Block
  | branch condition thenBody elseBody =>
    if condition.eval owned = true then thenBody else elseBody
  | act action => [act action]
  | go target line => [go target line]
  | choice label body => [choice label body]

/--
A choice can be merged into a menu, and so can a branch between choices: its selected part has
nothing but choices, or it is empty and the part that is not selected has nothing but choices.
-/
def Mergeable (owned : String → Bool) : Statement → Prop
  | choice _ _ => True
  | branch condition thenBody elseBody =>
    let selected := if condition.eval owned = true then thenBody else elseBody
    let other := if condition.eval owned = true then elseBody else thenBody
    Block.OnlyChoices selected ∨ selected = [] ∧ Block.OnlyChoices other
  | act _ | go _ _ => False

end Statement

def MenuItem.statement (item : MenuItem) : Statement :=
  .choice item.label item.body

theorem Block.allChoices_iff {block : Block} : block.allChoices = true ↔ block.OnlyChoices := by
  have one : ∀ statement : Statement, statement.isChoice = true ↔
      ∃ label body, statement = .choice label body := by
    intro statement
    cases statement <;> simp [Statement.isChoice]
  simp [allChoices, OnlyChoices, one]

theorem MenuItem.map_statement_ofBlock {block : Block}
    (choices : ∀ statement ∈ block, ∃ label body, statement = .choice label body) :
    (ofBlock block).map statement = block := by
  induction block with
  | nil => rfl
  | cons first rest ih =>
      obtain ⟨label, body, rfl⟩ := choices first List.mem_cons_self
      have others := ih fun later member => choices later (List.mem_cons_of_mem _ member)
      rw [ofBlock, List.filterMap_cons, ofStatement?, List.map_cons]
      exact congrArg _ others

namespace Menu

variable {owned : String → Bool}

theorem select_eq (condition : Condition) (thenBody elseBody : Block) :
    select owned condition thenBody elseBody =
      (if condition.eval owned = true then thenBody else elseBody,
        if condition.eval owned = true then elseBody else thenBody) := by
  unfold select
  split <;> rfl

/-- A statement adds what it stands for to a menu if it can be merged, and otherwise ends the menu. -/
theorem contribution?_cases (owned : String → Bool) (statement : Statement) :
    (∃ items, contribution? owned statement = some items ∧ statement.Mergeable owned ∧
      items.map MenuItem.statement = statement.spliced owned) ∨
    contribution? owned statement = none ∧ ¬ statement.Mergeable owned := by
  cases statement with
  | act action => exact .inr ⟨rfl, not_false⟩
  | go target line => exact .inr ⟨rfl, not_false⟩
  | choice label body => exact .inl ⟨_, rfl, trivial, rfl⟩
  | branch condition thenBody elseBody =>
      rw [contribution?, select_eq, Statement.Mergeable, Statement.spliced]
      dsimp only
      generalize (if condition.eval owned = true then thenBody else elseBody) = selected
      generalize (if condition.eval owned = true then elseBody else thenBody) = other
      by_cases pure : Block.allChoices selected = true
      · have choices := Block.allChoices_iff.1 pure
        left
        exact ⟨_, if_pos pure, .inl choices, MenuItem.map_statement_ofBlock choices.2⟩
      · rw [if_neg pure]
        by_cases skipped : (selected.isEmpty && Block.allChoices other) = true
        · obtain ⟨empty, others⟩ := Bool.and_eq_true_iff.1 skipped
          have nothing := List.isEmpty_iff.1 empty
          left
          exact ⟨_, if_pos skipped, .inr ⟨nothing, Block.allChoices_iff.1 others⟩, nothing.symm⟩
        · right
          refine ⟨if_neg skipped, ?_⟩
          rintro (choices | ⟨empty, others⟩)
          · exact pure (Block.allChoices_iff.2 choices)
          · apply skipped
            rw [empty, Block.allChoices_iff.2 others]
            rfl

/-- What the items at the front of a block are, and how far they reach. -/
structure Region (owned : String → Bool) (block : Block) (items : List MenuItem) (count : Nat) :
    Prop where
  bound : count ≤ block.length
  merged : ∀ statement ∈ block.take count, statement.Mergeable owned
  ended : ∀ statement, block[count]? = some statement → ¬ statement.Mergeable owned
  items : items.map MenuItem.statement = (block.take count).flatMap (Statement.spliced owned)

theorem region_takeItems (owned : String → Bool) (block : Block) :
    Region owned block (takeItems owned block).1 (takeItems owned block).2 := by
  induction block with
  | nil => exact ⟨Nat.le_refl 0, by simp, by simp, rfl⟩
  | cons statement rest ih =>
      obtain ⟨items, adds, merges, own⟩ | ⟨ends, alone⟩ := contribution?_cases owned statement
      · simp only [takeItems, adds]
        refine ⟨Nat.succ_le_succ ih.bound, ?_, ih.ended, ?_⟩
        · rw [List.take_succ_cons]
          exact List.forall_mem_cons.2 ⟨merges, ih.merged⟩
        · rw [List.take_succ_cons, List.flatMap_cons, List.map_append, own, ih.items]
      · simp only [takeItems, ends]
        exact ⟨Nat.zero_le _, by simp, by simpa using alone, rfl⟩

theorem takeItems_statements (items : List MenuItem) (behind : Block) :
    takeItems owned (items.map MenuItem.statement ++ behind) =
      (items ++ (takeItems owned behind).1, (takeItems owned behind).2 + items.length) := by
  induction items with
  | nil => rfl
  | cons item others ih =>
      rw [List.map_cons, List.cons_append, MenuItem.statement, takeItems, contribution?]
      simp only [ih, List.length_cons, List.cons_append, List.nil_append, Nat.add_assoc]

theorem takeItems_behind (owned : String → Bool) (block : Block) :
    takeItems owned (block.drop (takeItems owned block).2) = ([], 0) := by
  have region := region_takeItems owned block
  cases behind : block.drop (takeItems owned block).2 with
  | nil => rfl
  | cons statement rest =>
      have stands : block[(takeItems owned block).2]? = some statement := by
        rw [← List.head?_drop, behind]
        rfl
      obtain ⟨items, -, merges, -⟩ | ⟨ends, -⟩ := contribution?_cases owned statement
      · exact absurd merges (region.ended statement stands)
      · simp only [takeItems, ends]

theorem take_drop_collect (block : Block) (start : Nat) :
    (block.take (collect owned block start).2).drop start =
      (block.drop start).take (takeItems owned (block.drop start)).2 := by
  rw [collect, List.drop_take, Nat.add_sub_cancel_left]

theorem isLeast_collect {block : Block} {start : Nat} (inside : start ≤ block.length) :
    IsLeast {position | start ≤ position ∧ (position = block.length ∨
      ∃ statement, block[position]? = some statement ∧ ¬ statement.Mergeable owned)}
      (collect owned block start).2 := by
  have region := region_takeItems owned (block.drop start)
  have reach : (takeItems owned (block.drop start)).2 ≤ block.length - start := by
    simpa using region.bound
  constructor
  · refine ⟨Nat.le_add_right _ _, ?_⟩
    cases stands : block[(collect owned block start).2]? with
    | none =>
        have outside := List.getElem?_eq_none_iff.1 stands
        simp only [collect] at outside ⊢
        left
        omega
    | some statement =>
        refine .inr ⟨statement, rfl, region.ended statement ?_⟩
        rw [List.getElem?_drop]
        exact stands
  · rintro position ⟨behind, stops⟩
    apply Nat.le_of_not_lt
    intro early
    have before : position - start < (takeItems owned (block.drop start)).2 := by
      simp only [collect] at early
      omega
    obtain atEnd | ⟨statement, stands, blocks⟩ := stops
    · omega
    · apply blocks
      apply region.merged
      apply List.mem_of_getElem?
      rw [List.getElem?_take_of_lt before, List.getElem?_drop, Nat.add_sub_cancel' behind]
      exact stands

theorem collect_outside {block : Block} {start : Nat} (outside : block.length < start) :
    collect owned block start = ([], start) := by
  rw [collect, List.drop_of_length_le (Nat.le_of_lt outside)]
  rfl

/-- The menu stays the same if the branches of its region are replaced by what they stand for. -/
theorem collect_spliced (block : Block) (start : Nat) :
    collect owned
        (block.take start ++
          (((block.drop start).take (takeItems owned (block.drop start)).2).flatMap
              (Statement.spliced owned) ++
            block.drop (collect owned block start).2)) start =
      ((collect owned block start).1, start + (collect owned block start).1.length) := by
  have region := region_takeItems owned (block.drop start)
  have behind := takeItems_behind owned (block.drop start)
  rw [List.drop_drop] at behind
  by_cases inside : start ≤ block.length
  · have front : (block.take start).length = start := List.length_take_of_le inside
    rw [collect, List.drop_left' front, ← region.items, takeItems_statements]
    simp only [collect, behind, List.append_nil, Nat.zero_add]
  · have outside := Nat.not_le.1 inside
    have nothing : block.drop start = [] := List.drop_of_length_le (Nat.le_of_lt outside)
    rw [collect_outside outside, nothing, List.take_of_length_le (Nat.le_of_lt outside)]
    simp [takeItems, collect_outside outside]

/--
At every position of a block and whatever is owned, the menu reaches to the first position that is
the end of the block or has a statement that cannot be merged. Its items, written as choices, are the
statements of this region in order, each branch replaced by its selected part; behind the block there
is no menu. A block in which this replacement has been made has the same items. A menu at a choice
has at least one item and takes up at least one statement.
-/
theorem collect_region (owned : String → Bool) (block : Block) (start : Nat) :
    let items := (collect owned block start).1
    let stop := (collect owned block start).2
    let choices := ((block.take stop).drop start).flatMap (Statement.spliced owned)
    (start ≤ block.length →
      IsLeast {position | start ≤ position ∧ (position = block.length ∨
        ∃ statement, block[position]? = some statement ∧ ¬ statement.Mergeable owned)} stop ∧
      items.map MenuItem.statement = choices) ∧
    (block.length < start → collect owned block start = ([], start)) ∧
    collect owned (block.take start ++ (choices ++ block.drop stop)) start =
      (items, start + items.length) ∧
    ∀ label body, block[start]? = some (.choice label body) → start < stop ∧ items ≠ [] := by
  intro items stop choices
  have span : choices = ((block.drop start).take (takeItems owned (block.drop start)).2).flatMap
      (Statement.spliced owned) :=
    congrArg (List.flatMap (Statement.spliced owned)) (take_drop_collect block start)
  rw [span]
  refine ⟨?_, collect_outside, collect_spliced block start, ?_⟩
  · intro inside
    exact ⟨isLeast_collect inside, (region_takeItems owned (block.drop start)).items⟩
  · intro label body stands
    have next := Block.drop_of_reached stands
    obtain ⟨others, offered⟩ : ∃ others, items = ⟨label, body⟩ :: others := collect_choice next
    refine ⟨?_, ?_⟩
    · have taken : stop = start + (takeItems owned (block.drop start)).2 := rfl
      rw [taken, next]
      simp [takeItems, contribution?]
    · rw [offered]
      exact List.cons_ne_nil _ _

-- Nothing is owned. The first branch only withholds a choice and is passed over; the second one would
-- print something, so it ends the menu although its selected part is empty as well.
example :
    collect (fun _ => false)
        [.choice "knock" [], .branch (.has "key") [.choice "unlock" []] [],
          .branch (.has "lamp") [.act (.print "It is bright.")] [], .choice "leave" []] 0 =
      ([⟨"knock", []⟩], 2) := by
  decide

end Menu

end SceneScript
