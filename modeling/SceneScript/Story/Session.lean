import SceneScript.Script.Program
import SceneScript.Story.Machine

/-!
# Sessions

A session plays a program. `start` enters a scene and `tick` goes on after a selection; both run
until the story waits for a choice or has nothing left to do, following every `go` on the way. A
call that follows more than `transferLimit` of them fails: what it showed is lost, what it changed
is kept.
-/

namespace SceneScript

set_option autoImplicit false

inductive Input where
  | choose (index : Nat)
deriving DecidableEq

/-- What a call gives to be shown, and what the story waits for then. -/
structure Batch where
  commands : List Command
  waiting : Waiting
deriving DecidableEq

structure Session where
  program : Program
  state : State
  machine : Machine
  started : Bool

namespace Session

def transferLimit : Nat := 10000

def new (program : Program) : Session where
  program := program
  state := .initial
  machine := .idle
  started := false

instance : Inhabited Session := ⟨new .empty⟩

/-- The text that stands for a scene that does not exist. -/
def missingScene (id : String) : String :=
  "场景未找到: " ++ id

def enterScene (session : Session) (id : String) : Session × List Command :=
  let state := { session.state with scene := some id }
  match session.program.scene? id with
  | some scene =>
    ({ session with state := state, machine := .enter scene.body }, [.clearTransient])
  | none =>
    ({ session with state := state, machine := .idle },
      [.clearTransient, .showText (missingScene id)])

def run (session : Session) : Session × Flow × List Command :=
  let run := session.machine.run session.state
  ({ session with state := run.state, machine := run.machine }, run.flow, run.commands)

def before (commands : List Command) (result : Except StoryError (List Command) × Session) :
    Except StoryError (List Command) × Session :=
  (result.1.map (commands ++ ·), result.2)

/-- Runs on and follows at most `allowance` further `go`s. -/
def drive (session : Session) (allowance : Nat) : Except StoryError (List Command) × Session :=
  let (next, flow, commands) := session.run
  match flow with
  | .completed => (.ok commands, next)
  | .suspended count => (.ok commands, { next with state := next.state.wait (.choice count) })
  | .transferred target =>
    match allowance with
    | 0 => (.error (.transferLoop target transferLimit), next)
    | fewer + 1 =>
      let (entered, shown) := next.enterScene target
      before (commands ++ shown) (entered.drive fewer)

/-- Adds what the story waits for to the commands of a call. -/
def batch (result : Except StoryError (List Command) × Session) :
    Except StoryError Batch × Session :=
  (result.1.map fun commands => ⟨commands, result.2.state.waiting⟩, result.2)

/-- Starts a scene. The current style is shown first; flags and items are kept. -/
def start (session : Session) (id : String) : Except StoryError Batch × Session :=
  let started := { session with started := true, state := session.state.clearWait }
  let (entered, shown) := started.enterScene id
  batch (before (.applyStyle session.state.style :: shown) (entered.drive transferLimit))

/-- Takes an input; it counts only while the story waits. -/
def handle (session : Session) : Input → Except StoryError Session
  | .choose index =>
    match session.state.waiting with
    | .nothing => .ok session
    | .choice count =>
      if count ≤ index then
        .error (.invalidChoice index count)
      else
        (session.machine.select index).map fun machine =>
          { session with machine := machine, state := session.state.clearWait }

/-- Goes on, after an input if there is one. -/
def tick (session : Session) (input : Option Input) : Except StoryError Batch × Session :=
  if session.started then
    match input.elim (.ok session) session.handle with
    | .error error => (.error error, session)
    | .ok handled =>
      if handled.state.waiting.isWaiting then
        (.ok ⟨[], handled.state.waiting⟩, handled)
      else
        batch (handled.drive transferLimit)
  else
    (.error .notStarted, session)

/-- Whether the session was started and has nothing left to do. -/
def isFinished (session : Session) : Bool :=
  session.started && !session.state.waiting.isWaiting && session.machine.isIdle

end Session

end SceneScript
