import SceneScript.Script.Statement
import SceneScript.State.NameSet

/-!
# The state of a story

What the player has, how text looks, which scene was entered last and what the story waits for.
-/

namespace SceneScript

set_option autoImplicit false

structure GameState where
  flags : NameSet
  inventory : NameSet
deriving DecidableEq

namespace GameState

def empty : GameState where
  flags := .empty
  inventory := .empty

/-- A name counts as owned if it is a flag or an item. -/
def has (game : GameState) (name : String) : Bool :=
  game.flags.contains name || game.inventory.contains name

def setFlag (game : GameState) (name : String) : GameState :=
  { game with flags := game.flags.insert name }

def unsetFlag (game : GameState) (name : String) : GameState :=
  { game with flags := game.flags.erase name }

def addItem (game : GameState) (name : String) : GameState :=
  { game with inventory := game.inventory.insert name }

def removeItem (game : GameState) (name : String) : GameState :=
  { game with inventory := game.inventory.erase name }

end GameState

structure Style where
  background : String
  foreground : String
  font : String
  fontSize : Int64
deriving DecidableEq

namespace Style

def initial : Style where
  background := "#000000"
  foreground := "#f5f5dc"
  font := "'Garamond', serif"
  fontSize := 16

def apply (style : Style) : StyleChange → Style
  | .background color => { style with background := color }
  | .foreground color => { style with foreground := color }
  | .font family => { style with font := family }
  | .fontSize size => { style with fontSize := size }

end Style

inductive Waiting where
  | nothing
  | choice (count : Nat)
deriving DecidableEq

def Waiting.isWaiting : Waiting → Bool
  | nothing => false
  | choice _ => true

structure State where
  game : GameState
  style : Style
  scene : Option String
  waiting : Waiting
deriving DecidableEq

namespace State

def initial : State where
  game := .empty
  style := .initial
  scene := none
  waiting := .nothing

instance : Inhabited State := ⟨initial⟩

def wait (state : State) (waiting : Waiting) : State :=
  { state with waiting := waiting }

def clearWait (state : State) : State :=
  { state with waiting := .nothing }

end State

end SceneScript
