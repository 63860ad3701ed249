import SceneScript.Proofs.Script.Places
import SceneScript.Proofs.Story.MenuRegion
import SceneScript.Proofs.Story.TransferLimit

/-!
# Frames lie inside one another

A menu item can come from a branch, and its block is then pushed right on the block around the
branch. So a frame does not have to be a part of the frame below it, but it is always inside of it
at some depth, and the frame at the bottom is the current scene. Selections and transfers, however
many there are, keep it that way, and the stack is never higher than the scene is deep.
-/

namespace SceneScript

open StateTransition

set_option autoImplicit false

namespace Block

def IsPart (inner outer : Block) : Prop :=
  ∃ statement ∈ outer, inner ∈ statement.parts

/-- A block that is written inside the other one, at any depth. -/
def Inside : Block → Block → Prop :=
  Relation.TransGen IsPart

theorem depth_le_of_mem_parts {part : Block} {statement : Statement}
    (held : part ∈ statement.parts) : depth part ≤ statement.depth := by
  cases statement with
  | act action => cases held
  | go target line => cases held
  | choice label body =>
      obtain rfl := List.mem_singleton.1 held
      exact Nat.le_refl _
  | branch condition thenBody elseBody =>
      obtain rfl | rfl := List.mem_pair.1 held
      · exact Nat.le_max_left _ _
      · exact Nat.le_max_right _ _

theorem depth_lt_of_mem {block : Block} {statement : Statement} (member : statement ∈ block) :
    statement.depth < depth block := by
  induction member with
  | head rest => exact Nat.le_max_left _ _
  | tail first member ih => exact Nat.lt_of_lt_of_le ih (Nat.le_max_right _ _)

theorem depth_lt_of_inside {inner outer : Block} (inside : Inside inner outer) :
    depth inner < depth outer := by
  have one : ∀ {part block : Block}, IsPart part block → depth part < depth block := by
    rintro part block ⟨statement, member, held⟩
    exact Nat.lt_of_le_of_lt (depth_le_of_mem_parts held) (depth_lt_of_mem member)
  induction inside with
  | single part => exact one part
  | tail inside part ih => exact Nat.lt_trans ih (one part)

theorem depth_pos (block : Block) : 0 < depth block := by
  induction block with
  | nil => exact Nat.one_pos
  | cons statement rest ih => exact Nat.lt_of_lt_of_le ih (Nat.le_max_right _ _)

end Block

theorem Menu.select_mem_parts (owned : String → Bool) (condition : Condition)
    (thenBody elseBody : Block) :
    (select owned condition thenBody elseBody).1 ∈
      (Statement.branch condition thenBody elseBody).parts := by
  unfold select
  split <;> simp [Statement.parts]

/-- An item that a statement stands for in a menu lies inside the block of the statement. -/
theorem MenuItem.inside_of_mem_spliced {owned : String → Bool} {item : MenuItem} {block : Block}
    {statement : Statement} (member : statement ∈ block)
    (stands : item.statement ∈ statement.spliced owned) : Block.Inside item.body block := by
  cases statement with
  | act action => cases List.mem_singleton.1 stands
  | go target line => cases List.mem_singleton.1 stands
  | choice label body =>
      cases List.mem_singleton.1 stands
      exact .single ⟨_, member, List.mem_singleton_self _⟩
  | branch condition thenBody elseBody =>
      have selected := Menu.select_mem_parts owned condition thenBody elseBody
      rw [Menu.select_eq] at selected
      exact .tail (.single ⟨_, stands, List.mem_singleton_self _⟩) ⟨_, member, selected⟩

namespace Menu

variable {owned : String → Bool} {block : Block} {start : Nat}

theorem collect_le_length (inside : start ≤ block.length) :
    (collect owned block start).2 ≤ block.length := by
  have bound := (region_takeItems owned (block.drop start)).bound
  rw [List.length_drop] at bound
  simp only [collect]
  omega

theorem inside_of_mem_collect {item : MenuItem} (member : item ∈ (collect owned block start).1) :
    Block.Inside item.body block := by
  have written := List.mem_map_of_mem (f := MenuItem.statement) member
  simp only [collect, (region_takeItems owned (block.drop start)).items] at written
  obtain ⟨statement, merged, stands⟩ := List.mem_flatMap.1 written
  exact MenuItem.inside_of_mem_spliced (List.mem_of_mem_drop (List.mem_of_mem_take merged)) stands

end Menu

/--
The frames of a stack: no block is empty, no position is behind the end, each block is inside the
one below it, and the one at the bottom is the whole.
-/
structure Stack.Nested (stack : Stack) (whole : Option Block) : Prop where
  frames : ∀ frame ∈ stack, frame.body ≠ [] ∧ frame.position ≤ frame.body.length
  chain : stack.IsChain fun upper lower => Block.Inside upper.body lower.body
  bottom : ∀ frame, stack.getLast? = some frame → whole = some frame.body

namespace Stack

variable {frame : Frame} {below stack : Stack} {whole : Option Block} {body : Block}

theorem nested_nil : Nested [] whole :=
  ⟨nofun, .nil, nofun⟩

theorem nested_below (nested : Nested (frame :: below) whole) : Nested below whole where
  frames := (List.forall_mem_cons.1 nested.frames).2
  chain := nested.chain.tail
  bottom := by
    intro last ends
    apply nested.bottom last
    rw [List.getLast?_cons, ends]
    rfl

theorem nested_move {position : Nat} (nested : Nested (frame :: below) whole)
    (inside : position ≤ frame.body.length) :
    Nested ({ frame with position := position } :: below) whole := by
  obtain ⟨⟨full, -⟩, others⟩ := List.forall_mem_cons.1 nested.frames
  refine ⟨List.forall_mem_cons.2 ⟨⟨full, inside⟩, others⟩, ?_, ?_⟩
  · cases below with
    | nil => exact .singleton _
    | cons lower rest =>
        obtain ⟨inside, chain⟩ := List.isChain_cons_cons.1 nested.chain
        exact List.isChain_cons_cons.2 ⟨inside, chain⟩
  · intro last ends
    cases below with
    | nil =>
        cases ends
        exact nested.bottom frame rfl
    | cons lower rest =>
        apply nested.bottom last
        rw [List.getLast?_cons_cons] at ends ⊢
        exact ends

theorem nested_advance {statement : Statement} {behind : Block}
    (nested : Nested (frame :: below) whole) (rest : frame.rest = statement :: behind) :
    Nested (frame.advance :: below) whole := by
  apply nested_move nested
  apply Nat.lt_of_not_le
  intro ended
  rw [Frame.rest, List.drop_of_length_le ended] at rest
  cases rest

theorem nested_push (nested : Nested (frame :: below) whole)
    (inside : Block.Inside body frame.body) : Nested (push (frame :: below) body) whole := by
  unfold push
  split
  · exact nested
  · rename_i full
    refine ⟨?_, List.isChain_cons_cons.2 ⟨inside, nested.chain⟩, ?_⟩
    · refine List.forall_mem_cons.2 ⟨⟨?_, Nat.zero_le _⟩, nested.frames⟩
      rintro rfl
      exact full rfl
    · intro last ends
      rw [List.getLast?_cons_cons] at ends
      exact nested.bottom last ends

theorem nested_enter (body : Block) : Nested (push [] body) (some body) := by
  unfold push
  split
  · exact nested_nil
  · rename_i full
    refine ⟨?_, .singleton _, ?_⟩
    · intro frame member
      obtain rfl := List.mem_singleton.1 member
      refine ⟨?_, Nat.zero_le _⟩
      rintro rfl
      exact full rfl
    · intro frame ends
      cases ends
      rfl

/-- From the innermost frame outwards the blocks get deeper, so there are no more than the depth. -/
theorem length_lt_of_chain
    (chain : (frame :: below).IsChain fun upper lower => Block.Inside upper.body lower.body) :
    ∀ last, (frame :: below).getLast? = some last →
      below.length + Block.depth frame.body ≤ Block.depth last.body := by
  induction below generalizing frame with
  | nil =>
      rintro last ⟨⟩
      exact Nat.le_of_eq (Nat.zero_add _)
  | cons lower rest ih =>
      intro last ends
      obtain ⟨inside, chain⟩ := List.isChain_cons_cons.1 chain
      have higher := Block.depth_lt_of_inside inside
      have outer := ih chain last (List.getLast?_cons_cons ▸ ends)
      rw [List.length_cons]
      omega

theorem length_le_depth (nested : Nested stack (some body)) : stack.length ≤ Block.depth body := by
  cases stack with
  | nil => exact Nat.zero_le _
  | cons frame below =>
      have ends := List.getLast?_cons (a := frame) (l := below)
      have deep := length_lt_of_chain nested.chain _ ends
      cases nested.bottom _ ends
      have level := Block.depth_pos frame.body
      rw [List.length_cons]
      omega

end Stack

namespace Session

def currentBody? (session : Session) : Option Block :=
  (session.state.scene.bind session.program.scene?).map Scene.body

/-- A session whose frames lie inside the current scene, as do the items that can be selected. -/
structure Nested (program : Program) (session : Session) : Prop where
  plays : session.program = program
  stack : session.machine.stack.Nested session.currentBody?
  offered : ∀ items, session.machine.menu = some items → ∀ item ∈ items,
    ∃ frame below, session.machine.stack = frame :: below ∧ Block.Inside item.body frame.body

variable {program : Program} {session : Session}

theorem nested_of_closed (plays : session.program = program)
    (closed : session.machine.menu = none)
    (stack : session.machine.stack.Nested session.currentBody?) : Nested program session where
  plays := plays
  stack := stack
  offered := by
    intro items pending
    rw [closed] at pending
    cases pending

theorem nested_enterScene (plays : session.program = program) (id : String) :
    Nested program (session.enterScene id).1 := by
  unfold enterScene
  split
  · rename_i scene found
    refine nested_of_closed plays rfl ?_
    have current : currentBody? { session with
        state := { session.state with scene := some id }, machine := .enter scene.body } =
        some scene.body := by
      rw [currentBody?, Option.bind_some, found]
      rfl
    rw [current]
    exact Stack.nested_enter scene.body
  · exact nested_of_closed plays rfl Stack.nested_nil

theorem nested_opened (plays : session.program = program) (id : String) :
    Nested program (session.opened id) := by
  apply nested_enterScene
  exact plays

theorem nested_resumed (nested : Nested program session) {items : List MenuItem}
    {item : MenuItem} (pending : session.machine.menu = some items) (member : item ∈ items) :
    Nested program (session.resumed item) := by
  obtain ⟨frame, below, stands, inside⟩ := nested.offered items pending item member
  refine nested_of_closed nested.plays rfl ?_
  have stack := nested.stack
  rw [stands] at stack
  change Stack.Nested (session.machine.stack.push item.body) session.currentBody?
  rw [stands]
  exact Stack.nested_push stack inside

end Session

namespace Walk

variable {program : Program} {walk next stage : Walk}

theorem nested_step (stepped : walk.step = some next) (nested : walk.session.Nested program) :
    next.session.Nested program := by
  revert nested
  refine step_elim (motive := fun walk next =>
    walk.session.Nested program → next.session.Nested program) ?_ ?_ ?_ ?_ ?_ stepped
  · intro walk frame below stands rest nested
    have stack := nested.stack
    rw [stands] at stack
    exact Session.nested_of_closed nested.plays rfl (Stack.nested_below stack)
  · intro walk frame below action behind stands rest nested
    have stack := nested.stack
    rw [stands] at stack
    have stays : ((walk.perform action).withStack (frame.advance :: below)).session.currentBody? =
        walk.session.currentBody? := by
      rw [Session.currentBody?, Session.currentBody?, ← action.perform_scene walk.session.state]
      rfl
    refine Session.nested_of_closed nested.plays rfl ?_
    rw [stays]
    exact Stack.nested_advance stack rest
  · intro walk target nested
    exact Session.nested_enterScene nested.plays target
  · intro walk frame below stands nested
    have stack := nested.stack
    rw [stands] at stack
    have within := (List.forall_mem_cons.1 stack.frames).1.2
    refine ⟨nested.plays, Stack.nested_move stack (Menu.collect_le_length within), ?_⟩
    rintro items ⟨⟩ item member
    exact ⟨_, below, rfl, Menu.inside_of_mem_collect member⟩
  · intro walk frame below condition thenBody elseBody behind stands rest nested
    have stack := nested.stack
    rw [stands] at stack
    have here : .branch condition thenBody elseBody ∈ frame.body := by
      apply List.mem_of_mem_drop (i := frame.position)
      rw [← Frame.rest, rest]
      exact List.mem_cons_self
    have selected := Menu.select_mem_parts walk.session.state.game.has condition thenBody elseBody
    refine Session.nested_of_closed nested.plays rfl ?_
    exact Stack.nested_push (Stack.nested_advance stack rest) (.single ⟨_, here, selected⟩)

theorem nested_of_reaches (reaches : Reaches step walk stage)
    (nested : walk.session.Nested program) : stage.session.Nested program := by
  induction reaches with
  | refl => exact nested
  | tail before stepped ih => exact nested_step stepped ih

end Walk

namespace Session

variable {program : Program} {session : Session}

theorem nested_drive (nested : Nested program session) (fresh : session.machine.menu = none)
    (allowance : Nat) : Nested program (session.drive allowance).2 := by
  obtain ⟨stage, reaches, agrees⟩ :=
    Walk.exists_agrees_drive ⟨session, [], []⟩ fresh allowance
  have kept := Walk.nested_of_reaches reaches nested
  rw [Walk.Agrees] at agrees
  split at agrees
  · obtain ⟨-, left, -, -⟩ := agrees
    rw [← left]
    exact kept
  · obtain ⟨target, -, -, left, -⟩ := agrees
    rw [left]
    exact nested_of_closed kept.plays rfl Stack.nested_nil

theorem nested_respond (coherent : session.Coherent) (nested : Nested program session)
    (request : Request) : Nested program (session.respond request).2 := by
  cases request with
  | start id =>
      obtain ⟨shown, same⟩ := session.start_eq id
      obtain ⟨fresh, -⟩ :=
        enterScene_fresh { session with started := true, state := session.state.clearWait } id
      rw [respond, same]
      exact nested_drive (nested_opened nested.plays id) fresh transferLimit
  | tick input =>
      apply tick_elim (motive := fun _ outcome => Nested program outcome.2) coherent
      · intro input fresh
        exact nested
      · intro input begun calm
        exact nested
      · intro count begun waits
        exact nested
      · intro count index begun waits outside
        exact nested
      · intro items index item begun waits pending found
        have resumes := nested_resumed nested pending (List.mem_of_getElem? found)
        exact nested_drive resumes rfl transferLimit

theorem nested_replay (program : Program) (requests : List Request) :
    Nested program ((new program).replay requests) := by
  suffices general : ∀ (session : Session) (begun : Bool), Reached session begun →
      Nested program session → Nested program (session.replay requests) from
    general (new program) false (reached_new program)
      (nested_of_closed rfl rfl Stack.nested_nil)
  induction requests with
  | nil =>
      intro session begun reached nested
      exact nested
  | cons request rest ih =>
      intro session begun reached nested
      rw [replay_cons]
      have kept := nested_respond reached.coherent nested request
      exact ih _ _ (reached_respond reached request) kept

theorem nested_embark {request : Request} {walk : Walk} (nested : Nested program session)
    (embarked : session.embark request = .ok walk) : walk.session.Nested program := by
  obtain ⟨id, rfl⟩ | rfl | ⟨items, index, item, pending, found, rfl⟩ := embark_cases embarked
  · exact nested_opened nested.plays id
  · exact nested
  · exact nested_resumed nested pending (List.mem_of_getElem? found)

/-- What the current scene of the program says about the frames of a session. -/
structure Confined (program : Program) (session : Session) : Prop where
  frames : ∀ frame ∈ session.machine.stack,
    frame.body ≠ [] ∧ frame.position ≤ frame.body.length
  chain : session.machine.stack.IsChain fun upper lower => Block.Inside upper.body lower.body
  bottom : ∀ frame, session.machine.stack.getLast? = some frame →
    ∃ id scene, session.state.scene = some id ∧ program.scene? id = some scene ∧
      frame.body = scene.body
  bounded : ∀ id scene, session.state.scene = some id → program.scene? id = some scene →
    session.machine.stack.length ≤ Block.depth scene.body

theorem confined_of_nested (nested : Nested program session) : session.Confined program := by
  obtain ⟨rfl, stack, -⟩ := nested
  refine ⟨stack.frames, stack.chain, ?_, ?_⟩
  · intro frame ends
    obtain ⟨scene, found, same⟩ := Option.map_eq_some_iff.1 (stack.bottom frame ends)
    obtain ⟨id, current, here⟩ := Option.bind_eq_some_iff.1 found
    exact ⟨id, scene, current, here, same.symm⟩
  · intro id scene current found
    have whole : session.currentBody? = some scene.body := by
      rw [currentBody?, current, Option.bind_some, found]
      rfl
    rw [whole] at stack
    exact Stack.length_le_depth stack

/--
After any requests and at every stage of any call behind them: no frame has an empty block or a
position behind its end, each block is inside the one below it, the block at the bottom is the one
of the current scene, and there are at most as many frames as blocks lie inside one another there.
-/
theorem replay_confined (program : Program) (requests : List Request) :
    let session := (new program).replay requests
    session.Confined program ∧
      ∀ request walk stage, session.embark request = .ok walk → Reaches Walk.step walk stage →
        stage.session.Confined program := by
  intro session
  have nested : session.Nested program := nested_replay program requests
  refine ⟨confined_of_nested nested, ?_⟩
  intro request walk stage embarked reaches
  exact confined_of_nested (Walk.nested_of_reaches reaches (nested_embark nested embarked))

/-- A vault with stairs, a door that is offered from a branch, and a chest behind the door. -/
def vault : Program :=
  .ofScenes [
    ⟨"vault", 1, [
      .choice "stairs" [],
      .branch (.has "key") []
        [.choice "door" [.act (.print "dark"), .choice "chest" [.act (.print "gold")]]],
      .act (.print "out")]⟩]

theorem replay_confined_vault :
    let session := (new vault).replay [.start "vault", .tick (some (.choose 1))]
    ∃ walk, session.embark (.tick (some (.choose 0))) = .ok walk ∧
      walk.session.machine.stack.map Frame.position = [0, 2, 2] ∧
      session.Confined vault ∧ walk.session.Confined vault := by
  intro session
  obtain ⟨confined, onward⟩ :=
    replay_confined vault [.start "vault", .tick (some (.choose 1))]
  have opens : (session.embark (.tick (some (.choose 0)))).toOption.map
      (fun walk => walk.session.machine.stack.map Frame.position) = some [0, 2, 2] := by
    decide +kernel
  cases embarked : session.embark (.tick (some (.choose 0))) with
  | error error =>
      rw [embarked] at opens
      cases opens
  | ok walk =>
      rw [embarked] at opens
      exact ⟨walk, rfl, Option.some.inj opens, confined, onward _ walk walk embarked .refl⟩

end Session

end SceneScript
