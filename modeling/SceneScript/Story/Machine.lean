import SceneScript.Story.Command
import SceneScript.Story.Error
import SceneScript.Story.Menu

/-!
# Running blocks

A machine holds a stack of frames, each a block and the position of its next statement, and a menu
that waits for a selection. A run goes on until the stack is empty, a `go` is met or a menu is
presented. Every step takes a statement off the stack or a frame away, so a run ends.
-/

namespace SceneScript

set_option autoImplicit false

structure Frame where
  body : Block
  position : Nat
deriving DecidableEq

namespace Frame

def rest (frame : Frame) : Block :=
  frame.body.drop frame.position

def advance (frame : Frame) : Frame :=
  { frame with position := frame.position + 1 }

theorem rest_advance {frame : Frame} {statement : Statement} {behind : Block}
    (next : frame.rest = statement :: behind) : frame.advance.rest = behind := by
  have dropped : frame.body.drop (frame.position + 1) = (frame.body.drop frame.position).tail := by
    rw [List.tail_drop]
  rw [rest, advance, dropped]
  simp [show frame.body.drop frame.position = statement :: behind from next]

end Frame

/-- The innermost block comes first. -/
abbrev Stack : Type := List Frame

namespace Stack

/-- Starts a block; an empty block is done at once. -/
def push (stack : Stack) (body : Block) : Stack :=
  if body.isEmpty then stack else ⟨body, 0⟩ :: stack

/-- A bound for the steps that are left. -/
def weight : Stack → Nat
  | [] => 0
  | frame :: below => 1 + 2 * Block.size frame.rest + weight below

theorem weight_push_le (stack : Stack) (body : Block) :
    weight (stack.push body) ≤ 1 + 2 * Block.size body + weight stack := by
  unfold push
  split
  · omega
  · simp [weight, Frame.rest]

end Stack

inductive Flow where
  | completed
  | transferred (target : String)
  | suspended (count : Nat)
deriving DecidableEq

structure Machine where
  stack : Stack
  menu : Option (List MenuItem)
deriving DecidableEq

/-- The end of a run: how it ended, what is left, and what was shown. -/
structure Run where
  flow : Flow
  machine : Machine
  state : State
  commands : List Command
deriving DecidableEq

def Run.before (commands : List Command) (run : Run) : Run :=
  { run with commands := commands ++ run.commands }

namespace Machine

def idle : Machine where
  stack := []
  menu := none

instance : Inhabited Machine := ⟨idle⟩

def enter (body : Block) : Machine where
  stack := Stack.push [] body
  menu := none

def isIdle (machine : Machine) : Bool :=
  machine.stack.isEmpty && machine.menu.isNone

/-- Runs a stack with no menu pending. -/
def runStack (state : State) (stack : Stack) : Run :=
  match stack with
  | [] => ⟨.completed, idle, state, []⟩
  | frame :: below =>
    match _ : frame.rest with
    | [] => runStack state below
    | .act action :: _ =>
      let (changed, commands) := action.perform state
      (runStack changed (frame.advance :: below)).before commands
    | .go target _ :: _ => ⟨.transferred target, idle, state, []⟩
    | .choice _ _ :: _ =>
      let (items, position) := Menu.collect state.game.has frame.body frame.position
      { flow := .suspended items.length
        machine := ⟨{ frame with position := position } :: below, some items⟩
        state := state
        commands := [.presentChoices (items.map MenuItem.label)] }
    | .branch condition thenBody elseBody :: _ =>
      let selected := (Menu.select state.game.has condition thenBody elseBody).1
      runStack state (Stack.push (frame.advance :: below) selected)
termination_by Stack.weight stack
decreasing_by
  · simp only [Stack.weight]
    omega
  · rename_i next
    simp only [Stack.weight, Frame.rest_advance next, next, Block.size, Statement.size]
    omega
  · rename_i next
    have bound := Stack.weight_push_le (frame.advance :: below)
      (Menu.select state.game.has condition thenBody elseBody).1
    have part := Menu.size_select_le state.game.has condition thenBody elseBody
    simp only [Stack.weight, Frame.rest_advance next] at bound
    simp only [Stack.weight, next, Block.size, Statement.size]
    omega

/-- Runs on; a pending menu stays as it is. -/
def run (machine : Machine) (state : State) : Run :=
  match machine.menu with
  | some items => ⟨.suspended items.length, machine, state, []⟩
  | none => runStack state machine.stack

/-- Selects an item of the pending menu; its body runs next. -/
def select (machine : Machine) (index : Nat) : Except StoryError Machine :=
  match machine.menu with
  | none => .error (.noMenu index)
  | some items =>
    match items[index]? with
    | none => .error (.invalidChoice index items.length)
    | some item => .ok ⟨machine.stack.push item.body, none⟩

end Machine

end SceneScript
