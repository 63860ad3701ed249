import SceneScript.Proofs.Script.Places
import SceneScript.Proofs.Story.Turns

/-!
# No statement is executed twice

What a machine can still execute lies ahead of it: the rest of every frame and, while a menu is
pending, the body of one item before it. Executing a statement takes it off the front; a branch and
a menu drop what is not selected; nothing is ever added. So from entering a block on, however often
the machine is run and whatever is selected, the executed statements stand at ascending places of
the block. This bounds the commands, because a statement shows at most one, and the selections,
because each of them needs a choice that was executed.
-/

namespace SceneScript

open StateTransition

set_option autoImplicit false

def Visit.isChoice (visit : Visit) : Bool :=
  visit.statement.isChoice

mutual

theorem Statement.length_innerVisits (statement : Statement) :
    1 + statement.innerVisits.length = statement.size := by
  cases statement with
  | act action => rfl
  | go target line => rfl
  | choice label body => rw [Statement.innerVisits, Statement.size, Block.length_visits body]
  | branch condition thenBody elseBody =>
      rw [Statement.innerVisits, Statement.size, List.length_append, Block.length_visits thenBody,
        Block.length_visits elseBody, Nat.add_assoc]

theorem Block.length_visits (block : List Statement) :
    (Block.visits block).length = Block.size block := by
  cases block with
  | nil => rfl
  | cons statement rest =>
      have inner := Statement.length_innerVisits statement
      have later := Block.length_visits rest
      rw [Block.visits, Block.size, List.length_cons, List.length_append]
      omega

end

theorem Block.visits_drop (block : Block) (count : Nat) :
    (Block.visits (block.drop count)).Sublist (Block.visits block) := by
  induction block generalizing count with
  | nil => simp
  | cons statement rest ih =>
      cases count with
      | zero => exact .refl _
      | succ count =>
          rw [List.drop_succ_cons, Block.visits]
          exact ((ih count).trans (List.sublist_append_right _ _)).cons _

namespace Menu

variable {owned : String → Bool} {item : MenuItem}

theorem visits_select (owned : String → Bool) (condition : Condition) (thenBody elseBody : Block) :
    (Block.visits (select owned condition thenBody elseBody).1).Sublist
      (Statement.branch condition thenBody elseBody).innerVisits := by
  unfold select
  split
  · exact List.sublist_append_left _ _
  · exact List.sublist_append_right _ _

theorem visits_ofBlock {block : Block} (member : item ∈ MenuItem.ofBlock block) :
    (Block.visits item.body).Sublist (Block.visits block) := by
  obtain ⟨statement, inside, taken⟩ := List.mem_filterMap.1 member
  obtain ⟨front, behind, rfl⟩ := List.append_of_mem inside
  cases statement with
  | choice label body =>
      cases taken
      have later := Block.visits_drop (front ++ .choice label body :: behind) front.length
      rw [List.drop_left, Block.visits] at later
      exact ((List.sublist_append_left _ _).cons _).trans later
  | act action => cases taken
  | go target line => cases taken
  | branch condition thenBody elseBody => cases taken

theorem visits_contribution {statement : Statement} {items : List MenuItem}
    (adds : contribution? owned statement = some items) (member : item ∈ items) :
    (Block.visits item.body).Sublist statement.innerVisits := by
  cases statement with
  | act action => cases adds
  | go target line => cases adds
  | choice label body =>
      cases adds
      rw [List.mem_singleton.1 member]
      exact .refl _
  | branch condition thenBody elseBody =>
      simp only [contribution?] at adds
      split at adds
      · cases adds
        exact (visits_ofBlock member).trans (visits_select owned condition thenBody elseBody)
      · split at adds
        · cases adds
          cases member
        · cases adds

/-- The body of an item and what stands behind the menu come after the first statement. -/
theorem visits_takeItems {block : Block} (member : item ∈ (takeItems owned block).1) :
    (Block.visits item.body ++ Block.visits (block.drop (takeItems owned block).2)).Sublist
      (Block.visits block).tail := by
  induction block with
  | nil => cases member
  | cons statement rest ih =>
      cases adds : contribution? owned statement with
      | none => simp [takeItems, adds] at member
      | some items =>
          simp only [takeItems, adds, List.mem_append] at member
          simp only [takeItems, adds, List.drop_succ_cons, Block.visits, List.tail_cons]
          rcases member with own | later
          · exact (visits_contribution adds own).append (Block.visits_drop rest _)
          · exact ((ih later).trans (List.tail_sublist _)).trans (List.sublist_append_right _ _)

end Menu

/-- The statements in the rests of the frames, in the order in which they come up. -/
def Stack.ahead (stack : Stack) : List Visit :=
  stack.flatMap fun frame => Block.visits frame.rest

theorem Stack.ahead_push (stack : Stack) (body : Block) :
    Stack.ahead (stack.push body) = Block.visits body ++ stack.ahead := by
  cases body with
  | nil => rfl
  | cons statement rest => rfl

namespace Machine

/-- Of the visits, in this order and each at most once, the machine can execute no others. -/
def Ahead (machine : Machine) (visits : List Visit) : Prop :=
  match machine.menu with
  | none => machine.stack.ahead.Sublist visits
  | some items => ∀ item ∈ items, (Block.visits item.body ++ machine.stack.ahead).Sublist visits

def menus (machine : Machine) : Nat :=
  machine.menu.elim 0 fun _ => 1

theorem ahead_enter (body : Block) : (enter body).Ahead (Block.visits body) := by
  change (Stack.ahead (Stack.push [] body)).Sublist _
  rw [Stack.ahead_push]
  exact (List.append_nil _).symm ▸ .refl _

theorem ahead_select {machine selected : Machine} {visits : List Visit} {index : Nat}
    (ahead : machine.Ahead visits) (taken : machine.select index = .ok selected) :
    selected.Ahead visits ∧ machine.menus = 1 ∧ selected.menus = 0 := by
  obtain ⟨stack, menu⟩ := machine
  cases menu with
  | none => cases taken
  | some items =>
      simp only [select] at taken
      split at taken
      · cases taken
      · rename_i item found
        cases taken
        refine ⟨?_, rfl, rfl⟩
        change (Stack.ahead (Stack.push _ _)).Sublist visits
        rw [Stack.ahead_push]
        exact ahead item (List.mem_of_getElem? found)

end Machine

theorem Action.length_perform_le (action : Action) (state : State) :
    (action.perform state).2.length ≤ 1 := by
  cases action <;> simp [perform]

/--
Of a run that began with `waited` menus pending: what it has executed comes before what lies ahead,
it has shown no more commands than it has executed statements, and a menu is pending for each choice
among these.
-/
structure Moment.Frugal (visits : List Visit) (waited : Nat) (moment : Moment) : Prop where
  order : ∃ later, moment.machine.Ahead later ∧ (moment.executed ++ later).Sublist visits
  commands : moment.commands.length ≤ moment.executed.length
  menus : moment.executed.countP Visit.isChoice + waited = moment.machine.menus

namespace Moment

variable {visits : List Visit} {waited : Nat} {moment : Moment} {frame : Frame} {below : Stack}
  {behind : Block}

theorem ahead_frame (rest : frame.rest = behind) :
    Stack.ahead (frame :: below) = Block.visits behind ++ below.ahead := by
  rw [Stack.ahead, List.flatMap_cons, rest]
  rfl

theorem order_note {statement : Statement} (frugal : moment.Frugal visits waited)
    (stands : moment.machine = ⟨frame :: below, none⟩) (rest : frame.rest = statement :: behind)
    {later : List Visit}
    (ahead : later.Sublist (statement.innerVisits ++ (Block.visits behind ++ below.ahead))) :
    ((moment.note ⟨statement, behind⟩).executed ++ later).Sublist visits := by
  obtain ⟨all, reached, order⟩ := frugal.order
  rw [stands] at reached
  have first : (Stack.ahead (frame :: below)).Sublist all := reached
  rw [ahead_frame rest, Block.visits, List.cons_append, List.append_assoc] at first
  rw [note, List.append_assoc]
  exact ((List.Sublist.refl _).append ((ahead.cons_cons _).trans first)).trans order

theorem countP_note (frugal : moment.Frugal visits waited)
    (stands : moment.machine = ⟨frame :: below, none⟩) (statement : Statement) (behind : Block) :
    (moment.note ⟨statement, behind⟩).executed.countP Visit.isChoice + waited =
      if statement.isChoice then 1 else 0 := by
  have none : moment.executed.countP Visit.isChoice + waited = 0 := by
    rw [frugal.menus, stands]
    rfl
  rw [note, List.countP_append, List.countP_singleton, Nat.add_right_comm, none, Nat.zero_add]
  rfl

theorem frugal_execute {statement : Statement} (frugal : moment.Frugal visits waited)
    (stands : moment.machine = ⟨frame :: below, none⟩) (rest : frame.rest = statement :: behind) :
    ((moment.note ⟨statement, behind⟩).execute frame below statement).Frugal visits waited := by
  have shown : moment.commands.length + 1 ≤ (moment.note ⟨statement, behind⟩).executed.length := by
    rw [note, List.length_append]
    exact Nat.succ_le_succ frugal.commands
  have counted := countP_note frugal stands statement behind
  cases statement with
  | act action =>
      refine ⟨⟨Block.visits behind ++ below.ahead, ?_, ?_⟩, ?_, counted⟩
      · change (Stack.ahead (frame.advance :: below)).Sublist _
        rw [ahead_frame (Frame.rest_advance rest)]
      · exact order_note frugal stands rest (.refl _)
      · have single := action.length_perform_le moment.state
        change (moment.commands ++ (action.perform moment.state).2).length ≤ _
        rw [List.length_append]
        exact (Nat.add_le_add_left single _).trans shown
  | go target line =>
      refine ⟨⟨[], List.Sublist.refl _, ?_⟩, ?_, counted⟩
      · exact order_note frugal stands rest (List.nil_sublist _)
      · exact Nat.le_of_succ_le shown
  | choice label body =>
      have tail : (Block.visits (frame.body.drop frame.position)).tail =
          (Statement.choice label body).innerVisits ++ Block.visits behind := by
        rw [show frame.body.drop frame.position = _ from rest, Block.visits, List.tail_cons]
      refine ⟨⟨_, ?_, order_note frugal stands rest (.refl _)⟩, ?_, counted⟩
      · intro item member
        have within := Menu.visits_takeItems member
        rw [tail, List.drop_drop] at within
        change (Block.visits item.body ++ Stack.ahead (_ :: below)).Sublist _
        rw [ahead_frame rfl, ← List.append_assoc, ← List.append_assoc]
        exact within.append (.refl _)
      · simp only [execute, List.length_append, List.length_singleton]
        exact shown
  | branch condition thenBody elseBody =>
      have part := Menu.visits_select moment.state.game.has condition thenBody elseBody
      have kept := order_note frugal stands rest (part.append (.refl _))
      refine ⟨⟨_, ?_, kept⟩, Nat.le_of_succ_le shown, counted⟩
      change (Stack.ahead (Stack.push (frame.advance :: below) _)).Sublist _
      rw [Stack.ahead_push, ahead_frame (Frame.rest_advance rest)]
      exact .refl _

theorem frugal_next {later : Moment} (turned : moment.next = some later)
    (frugal : moment.Frugal visits waited) : later.Frugal visits waited := by
  revert frugal
  refine next_elim (motive := fun moment later =>
    moment.Frugal visits waited → later.Frugal visits waited) ?_ ?_ ?_ ?_ turned
  · intro moment items runs pending frugal
    exact ⟨frugal.order, frugal.commands, frugal.menus⟩
  · intro moment runs stands frugal
    exact ⟨frugal.order, frugal.commands, frugal.menus⟩
  · intro moment frame below runs stands rest frugal
    obtain ⟨order, commands, menus⟩ := frugal
    rw [stands] at order menus
    obtain ⟨all, reached, order⟩ := order
    have first : (Stack.ahead (frame :: below)).Sublist all := reached
    rw [ahead_frame rest] at first
    exact ⟨⟨all, first, order⟩, commands, menus⟩
  · intro moment frame below statement behind runs stands rest frugal
    exact frugal_execute frugal stands rest

end Moment

namespace Machine

theorem frugal_run {machine : Machine} {visits : List Visit} (ahead : machine.Ahead visits)
    (state : State) : (Moment.begin machine state).last.Frugal visits machine.menus := by
  apply Moment.last_of_kept fun moment later turned frugal => Moment.frugal_next turned frugal
  exact ⟨⟨visits, ahead, .refl _⟩, Nat.le_refl 0, Nat.zero_add _⟩

/-- A call of a machine. A run may find any state. -/
inductive Use where
  | run (state : State)
  | select (index : Nat)

structure Usage where
  machine : Machine
  executed : List Visit
  commands : List Command
  selections : Nat

namespace Usage

def enter (body : Block) : Usage where
  machine := .enter body
  executed := []
  commands := []
  selections := 0

/-- A selection that fails changes nothing and does not count. -/
def apply (usage : Usage) : Use → Usage
  | .run state =>
    { usage with
      machine := (usage.machine.run state).machine
      executed := usage.executed ++ usage.machine.executed state
      commands := usage.commands ++ (usage.machine.run state).commands }
  | .select index =>
    match usage.machine.select index with
    | .error _ => usage
    | .ok machine => { usage with machine := machine, selections := usage.selections + 1 }

structure Frugal (visits : List Visit) (usage : Usage) : Prop where
  order : ∃ later, usage.machine.Ahead later ∧ (usage.executed ++ later).Sublist visits
  commands : usage.commands.length ≤ usage.executed.length
  menus : usage.executed.countP Visit.isChoice = usage.selections + usage.machine.menus

theorem frugal_apply {visits : List Visit} {usage : Usage} (frugal : usage.Frugal visits)
    (use : Use) : (usage.apply use).Frugal visits := by
  obtain ⟨⟨all, ahead, order⟩, commands, menus⟩ := frugal
  cases use with
  | run state =>
      have ran := frugal_run ahead state
      rw [Moment.last_begin] at ran
      obtain ⟨⟨later, further, within⟩, shown, counted⟩ := ran
      refine ⟨⟨later, further, ?_⟩, ?_, ?_⟩
      · rw [apply, List.append_assoc]
        exact ((List.Sublist.refl _).append within).trans order
      · rw [apply, List.length_append, List.length_append]
        exact Nat.add_le_add commands shown
      · rw [apply, List.countP_append, menus]
        dsimp only at counted ⊢
        omega
  | select index =>
      rw [apply]
      split
      · exact ⟨⟨all, ahead, order⟩, commands, menus⟩
      · rename_i selected taken
        obtain ⟨further, one, zero⟩ := ahead_select ahead taken
        refine ⟨⟨all, further, order⟩, commands, ?_⟩
        rw [menus, one, zero]

theorem frugal_uses (body : Block) (uses : List Use) :
    (uses.foldl apply (enter body)).Frugal (Block.visits body) := by
  suffices general : ∀ usage : Usage, usage.Frugal (Block.visits body) →
      (uses.foldl apply usage).Frugal (Block.visits body) from
    general (enter body) ⟨⟨_, ahead_enter body, .refl _⟩, Nat.le_refl 0, rfl⟩
  induction uses with
  | nil => exact fun usage frugal => frugal
  | cons use rest ih => exact fun usage frugal => ih _ (frugal_apply frugal use)

end Usage

/--
From every machine and every state the loop of a run ends, with what the run gives. From entering a
block on, over any runs and selections, the executed statements stand at ascending places of the
block, so that none is executed twice; there are at most as many commands as the block has
statements at every depth, and at most as many selections as it has choices.
-/
theorem uses_once (body : Block) (uses : List Use) :
    (∀ (machine : Machine) (state : State),
      eval Moment.next (Moment.begin machine state) = Part.some
        { flow := some (machine.run state).flow
          machine := (machine.run state).machine
          state := (machine.run state).state
          executed := machine.executed state
          commands := (machine.run state).commands }) ∧
    let usage := uses.foldl Usage.apply (Usage.enter body)
    (∃ places : List (List Nat), places.Pairwise (· < ·) ∧
      places.map (Block.at? body) = usage.executed.map some) ∧
    usage.commands.length ≤ Block.size body ∧
    usage.selections ≤ (Block.visits body).countP Visit.isChoice := by
  refine ⟨?_, ?_⟩
  · intro machine state
    rw [Moment.eval_next, Moment.last_begin]
  · intro usage
    obtain ⟨⟨later, -, order⟩, commands, menus⟩ := Usage.frugal_uses body uses
    have within : usage.executed.Sublist (Block.visits body) :=
      (List.sublist_append_left _ later).trans order
    refine ⟨?_, ?_, ?_⟩
    · have placed := within.map some
      rw [← Block.map_at?_places, List.sublist_map_iff] at placed
      obtain ⟨places, inside, same⟩ := placed
      exact ⟨places, (Block.ascending_places body).sublist inside, same.symm⟩
    · rw [← Block.length_visits]
      exact commands.trans within.length_le
    · have chosen := within.countP_le (p := Visit.isChoice)
      rw [menus] at chosen
      exact (Nat.le_add_right _ _).trans chosen

end Machine

end SceneScript
