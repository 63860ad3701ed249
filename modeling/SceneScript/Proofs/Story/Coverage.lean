import SceneScript.Proofs.Story.Itinerary

/-!
# Only statements of the program are ever run

What holds of every statement that a walk through the scenes of a program meets holds of every
statement that a session has still to run: the blocks on the stack and the bodies of the pending menu
are parts of scenes. The invariant is kept by a run, by entering a scene and by every request, so
every `go` that is followed is one that the walk meets.
-/

namespace SceneScript

set_option autoImplicit false

def Block.Everywhere (good : Statement → Prop) (block : Block) : Prop :=
  ∀ visit ∈ Block.visits block, good visit.statement

namespace Block

variable {good : Statement → Prop} {statement : Statement} {block rest : Block}

theorem everywhere_cons : Block.Everywhere good (statement :: rest) ↔
    good statement ∧ (∀ visit ∈ statement.innerVisits, good visit.statement) ∧
      Block.Everywhere good rest := by
  simp only [Everywhere, visits, List.forall_mem_cons, List.forall_mem_append]

theorem everywhere_branch {condition : Condition} {thenBody elseBody : Block} :
    (∀ visit ∈ (Statement.branch condition thenBody elseBody).innerVisits, good visit.statement) ↔
      thenBody.Everywhere good ∧ elseBody.Everywhere good := by
  simp only [Statement.innerVisits, Everywhere, List.forall_mem_append]

theorem everywhere_drop (holds : block.Everywhere good) (count : Nat) :
    Block.Everywhere good (block.drop count) := by
  induction block generalizing count with
  | nil => simpa using holds
  | cons statement rest ih =>
      cases count with
      | zero => exact holds
      | succ count => exact ih (everywhere_cons.1 holds).2.2 count

end Block

namespace Menu

variable {good : Statement → Prop} {owned : String → Bool} {condition : Condition}
  {thenBody elseBody block : Block} {statement : Statement}

theorem everywhere_select (inThen : thenBody.Everywhere good) (inElse : elseBody.Everywhere good) :
    (select owned condition thenBody elseBody).1.Everywhere good := by
  unfold select
  split
  · exact inThen
  · exact inElse

theorem everywhere_ofBlock (holds : block.Everywhere good) :
    ∀ item ∈ MenuItem.ofBlock block, item.body.Everywhere good := by
  intro item member
  obtain ⟨statement, inside, taken⟩ := List.mem_filterMap.1 member
  induction block with
  | nil => cases inside
  | cons first rest ih =>
      obtain ⟨-, inner, later⟩ := Block.everywhere_cons.1 holds
      rcases List.mem_cons.1 inside with rfl | inRest
      · cases statement with
        | choice label body =>
            rw [← Option.some.inj taken]
            exact inner
        | act action => cases taken
        | go target line => cases taken
        | branch condition thenBody elseBody => cases taken
      · exact ih later (List.mem_filterMap.2 ⟨statement, inRest, taken⟩) inRest

theorem everywhere_contribution {items : List MenuItem}
    (holds : ∀ visit ∈ statement.innerVisits, good visit.statement)
    (adds : contribution? owned statement = some items) :
    ∀ item ∈ items, item.body.Everywhere good := by
  cases statement with
  | act action => cases adds
  | go target line => cases adds
  | choice label body =>
      rw [← Option.some.inj adds]
      intro item member
      rw [List.mem_singleton.1 member]
      exact holds
  | branch condition thenBody elseBody =>
      obtain ⟨inThen, inElse⟩ := Block.everywhere_branch.1 holds
      simp only [contribution?] at adds
      split at adds
      · rw [← Option.some.inj adds]
        exact everywhere_ofBlock (everywhere_select inThen inElse)
      · split at adds
        · rw [← Option.some.inj adds]
          simp
        · cases adds

theorem everywhere_takeItems (holds : block.Everywhere good) :
    ∀ item ∈ (takeItems owned block).1, item.body.Everywhere good := by
  induction block with
  | nil => simp [takeItems]
  | cons statement rest ih =>
      obtain ⟨-, inner, later⟩ := Block.everywhere_cons.1 holds
      cases adds : contribution? owned statement with
      | none => simp [takeItems, adds]
      | some items =>
          simp only [takeItems, adds, List.forall_mem_append]
          exact ⟨everywhere_contribution inner adds, ih later⟩

end Menu

/-- Every statement that the stack or the pending menu can still reach is good. -/
structure Machine.Everywhere (good : Statement → Prop) (machine : Machine) : Prop where
  stack : ∀ frame ∈ machine.stack, frame.body.Everywhere good
  menu : ∀ items, machine.menu = some items → ∀ item ∈ items, item.body.Everywhere good

/-- A run leaves good statements behind and transfers only through a good `go`. -/
structure Run.Everywhere (good : Statement → Prop) (run : Run) : Prop where
  machine : run.machine.Everywhere good
  transfer : ∀ target, run.flow = .transferred target → ∃ line, good (.go target line)

namespace Machine

variable {good : Statement → Prop}

theorem everywhere_idle : idle.Everywhere good :=
  ⟨by simp [idle], by simp [idle]⟩

theorem everywhere_push {stack : Stack} {body : Block}
    (holds : ∀ frame ∈ stack, frame.body.Everywhere good) (inside : body.Everywhere good) :
    ∀ frame ∈ stack.push body, frame.body.Everywhere good := by
  unfold Stack.push
  split
  · exact holds
  · exact List.forall_mem_cons.2 ⟨inside, holds⟩

theorem everywhere_advance {frame : Frame} {below : Stack}
    (holds : ∀ other ∈ frame :: below, other.body.Everywhere good) :
    ∀ other ∈ frame.advance :: below, other.body.Everywhere good := by
  obtain ⟨here, further⟩ := List.forall_mem_cons.1 holds
  exact List.forall_mem_cons.2 ⟨here, further⟩

theorem everywhere_next {frame : Frame} {below : Stack} {statement : Statement} {behind : Block}
    (holds : ∀ other ∈ frame :: below, other.body.Everywhere good)
    (next : frame.rest = statement :: behind) :
    good statement ∧ ∀ visit ∈ statement.innerVisits, good visit.statement := by
  have inside : Block.Everywhere good frame.rest :=
    Block.everywhere_drop (List.forall_mem_cons.1 holds).1 frame.position
  rw [next, Block.everywhere_cons] at inside
  exact ⟨inside.1, inside.2.1⟩

theorem everywhere_enter {body : Block} (inside : body.Everywhere good) :
    (enter body).Everywhere good :=
  ⟨everywhere_push (by simp) inside, by simp [enter]⟩

theorem everywhere_runStack (state : State) (stack : Stack)
    (holds : ∀ frame ∈ stack, frame.body.Everywhere good) :
    (runStack state stack).Everywhere good := by
  induction state, stack using runStack.induct with
  | case1 state =>
      rw [runStack_nil]
      exact ⟨everywhere_idle, by simp⟩
  | case2 state frame below next ih =>
      rw [runStack_done next]
      exact ih (List.forall_mem_cons.1 holds).2
  | case3 state frame below action behind next changed commands performed ih =>
      rw [runStack_act next, performed]
      obtain ⟨machine, transfer⟩ := ih (everywhere_advance holds)
      exact ⟨machine, transfer⟩
  | case4 state frame below target line behind next =>
      rw [runStack_go next]
      refine ⟨everywhere_idle, ?_⟩
      intro other leaves
      cases leaves
      exact ⟨line, (everywhere_next holds next).1⟩
  | case5 state frame below label body behind next items position collected =>
      obtain ⟨here, further⟩ := List.forall_mem_cons.1 holds
      rw [runStack_choice next]
      refine ⟨⟨List.forall_mem_cons.2 ⟨here, further⟩, ?_⟩, by simp⟩
      intro offered pending
      cases pending
      exact Menu.everywhere_takeItems (Block.everywhere_drop here frame.position)
  | case6 state frame below condition thenBody elseBody behind next selected ih =>
      obtain ⟨inThen, inElse⟩ := Block.everywhere_branch.1 (everywhere_next holds next).2
      rw [runStack_branch next]
      apply ih
      exact everywhere_push (everywhere_advance holds) (Menu.everywhere_select inThen inElse)

theorem everywhere_run {machine : Machine} (holds : machine.Everywhere good) (state : State) :
    (machine.run state).Everywhere good := by
  unfold run
  split
  · exact ⟨holds, by simp⟩
  · exact everywhere_runStack state machine.stack holds.stack

end Machine

def Program.Everywhere (good : Statement → Prop) (program : Program) : Prop :=
  ∀ scene ∈ program.scenes.toList, scene.body.Everywhere good

namespace Session

variable {good : Statement → Prop} {session : Session}

structure Everywhere (good : Statement → Prop) (session : Session) : Prop where
  program : session.program.Everywhere good
  machine : session.machine.Everywhere good

theorem everywhere_enterScene (holds : session.program.Everywhere good) (id : String) :
    (session.enterScene id).1.Everywhere good := by
  unfold enterScene
  cases found : session.program.scene? id with
  | none => exact ⟨holds, Machine.everywhere_idle⟩
  | some scene =>
      obtain ⟨position, -, held⟩ := Option.bind_eq_some_iff.1 found
      rw [← Array.getElem?_toList] at held
      exact ⟨holds, Machine.everywhere_enter (holds scene (List.mem_of_getElem? held))⟩

theorem everywhere_drive (holds : session.Everywhere good) (allowance : Nat) :
    (session.drive allowance).2.Everywhere good ∧
      ∀ target ∈ session.transfers allowance, ∃ line, good (.go target line) := by
  revert holds
  apply drive_elim (motive := fun session visited result => session.Everywhere good →
    result.2.Everywhere good ∧ ∀ target ∈ visited, ∃ line, good (.go target line))
  · intro session ended holds
    have run := Machine.everywhere_run holds.machine session.state
    exact ⟨⟨holds.program, run.machine⟩, by simp⟩
  · intro session count ended holds
    have run := Machine.everywhere_run holds.machine session.state
    exact ⟨⟨holds.program, run.machine⟩, by simp⟩
  · intro session target ended holds
    have run := Machine.everywhere_run holds.machine session.state
    exact ⟨⟨holds.program, run.machine⟩, by simp⟩
  · intro session target visited result ended later holds
    have run := Machine.everywhere_run holds.machine session.state
    have opens : session.run.1.program.Everywhere good := holds.program
    obtain ⟨kept, followed⟩ := later (everywhere_enterScene opens target)
    exact ⟨kept, List.forall_mem_cons.2 ⟨run.transfer target ended, followed⟩⟩

theorem everywhere_opened (holds : session.program.Everywhere good) (id : String) :
    (session.opened id).Everywhere good := by
  apply everywhere_enterScene
  exact holds

theorem everywhere_resumed {items : List MenuItem} {index : Nat} {item : MenuItem}
    (holds : session.Everywhere good) (pending : session.machine.menu = some items)
    (found : items[index]? = some item) : (session.resumed item).Everywhere good := by
  have inside := holds.machine.menu items pending item (List.mem_of_getElem? found)
  exact ⟨holds.program, Machine.everywhere_push holds.machine.stack inside, by simp [resumed]⟩

/-- A request enters the scene that it starts and otherwise only targets of good `go`s. -/
theorem everywhere_respond (coherent : session.Coherent) (holds : session.Everywhere good)
    (request : Request) :
    (session.respond request).2.Everywhere good ∧
      ∀ id ∈ session.entered request, request = .start id ∨ ∃ line, good (.go id line) := by
  apply respond_elim coherent (motive := fun request visited result => result.2.Everywhere good ∧
    ∀ id ∈ visited, request = .start id ∨ ∃ line, good (.go id line))
  · intro id
    obtain ⟨kept, followed⟩ := everywhere_drive (everywhere_opened holds.program id) transferLimit
    refine ⟨kept, List.forall_mem_cons.2 ⟨.inl rfl, ?_⟩⟩
    intro target member
    exact .inr (followed target member)
  · intro items index item begun waits pending found
    obtain ⟨kept, followed⟩ :=
      everywhere_drive (everywhere_resumed holds pending found) transferLimit
    refine ⟨kept, ?_⟩
    intro target member
    exact .inr (followed target member)
  · intro request refused
    exact ⟨holds, by simp⟩

theorem everywhere_itinerary {begun : Bool} (reached : Reached session begun)
    (holds : session.Everywhere good) (requests : List Request) :
    ∀ id ∈ session.itinerary requests, .start id ∈ requests ∨ ∃ line, good (.go id line) := by
  induction requests generalizing session begun with
  | nil => simp [itinerary]
  | cons request rest ih =>
      obtain ⟨kept, visited⟩ := everywhere_respond reached.coherent holds request
      have later := ih (reached_respond reached request) kept
      intro id member
      rcases List.mem_append.1 member with now | next
      · rcases visited id now with rfl | followed
        · exact .inl List.mem_cons_self
        · exact .inr followed
      · rcases later id next with started | followed
        · exact .inl (List.mem_cons_of_mem _ started)
        · exact .inr followed

end Session

end SceneScript
