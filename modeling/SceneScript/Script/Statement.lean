import SceneScript.Condition.Basic

/-!
# Statements and scenes

A scene is a named block of statements. An action changes the state or shows something and goes on
to the next statement; the other statements decide where the story goes.
-/

namespace SceneScript

set_option autoImplicit false

inductive StyleChange where
  | background (color : String)
  | foreground (color : String)
  | font (family : String)
  | fontSize (size : Int64)
deriving DecidableEq, Inhabited

def StyleChange.property : StyleChange → String
  | background _ => "background"
  | foreground _ => "foreground"
  | font _ => "font"
  | fontSize _ => "fontsize"

inductive Action where
  | print (text : String)
  | image (source : String)
  | setFlag (name : String)
  | unsetFlag (name : String)
  | addItem (name : String)
  | removeItem (name : String)
  | style (change : StyleChange)
deriving DecidableEq, Inhabited

/-- A `go` carries the number of its source line, or zero if it has none. -/
inductive Statement where
  | act (action : Action)
  | go (target : String) (line : Nat)
  | choice (label : String) (body : List Statement)
  | branch (condition : Condition) (thenBody elseBody : List Statement)
deriving Inhabited

abbrev Block : Type := List Statement

namespace Statement

mutual

def decEq : (a b : Statement) → Decidable (a = b)
  | act a, act b =>
    if same : a = b then isTrue (by rw [same]) else isFalse (by simp [same])
  | go s m, go t n =>
    if same : s = t ∧ m = n then isTrue (by rw [same.1, same.2]) else isFalse (by simpa using same)
  | choice s xs, choice t ys =>
    match decEqBlock xs ys with
    | isTrue bodies =>
      if same : s = t then isTrue (by rw [same, bodies]) else isFalse (by simp [same])
    | isFalse differ => isFalse (by simp [differ])
  | branch c ts es, branch d us fs =>
    match decEqBlock ts us, decEqBlock es fs with
    | isTrue thens, isTrue elses =>
      if same : c = d then isTrue (by rw [same, thens, elses]) else isFalse (by simp [same])
    | isFalse differ, _ => isFalse (by simp [differ])
    | _, isFalse differ => isFalse (by simp [differ])
  | act _, go _ _ => isFalse (by simp)
  | act _, choice _ _ => isFalse (by simp)
  | act _, branch _ _ _ => isFalse (by simp)
  | go _ _, act _ => isFalse (by simp)
  | go _ _, choice _ _ => isFalse (by simp)
  | go _ _, branch _ _ _ => isFalse (by simp)
  | choice _ _, act _ => isFalse (by simp)
  | choice _ _, go _ _ => isFalse (by simp)
  | choice _ _, branch _ _ _ => isFalse (by simp)
  | branch _ _ _, act _ => isFalse (by simp)
  | branch _ _ _, go _ _ => isFalse (by simp)
  | branch _ _ _, choice _ _ => isFalse (by simp)

def decEqBlock : (xs ys : List Statement) → Decidable (xs = ys)
  | [], [] => isTrue rfl
  | [], _ :: _ => isFalse (by simp)
  | _ :: _, [] => isFalse (by simp)
  | x :: xs, y :: ys =>
    match decEq x y, decEqBlock xs ys with
    | isTrue heads, isTrue tails => isTrue (by rw [heads, tails])
    | isFalse differ, _ => isFalse (by simp [differ])
    | _, isFalse differ => isFalse (by simp [differ])

end

instance : DecidableEq Statement := decEq

def isChoice : Statement → Bool
  | choice _ _ => true
  | _ => false

inductive Head where
  | act (action : Action)
  | go (target : String) (line : Nat)
  | choice (label : String)
  | branch (condition : Condition)
deriving DecidableEq

def head : Statement → Head
  | act action => .act action
  | go target line => .go target line
  | choice label _ => .choice label
  | branch condition _ _ => .branch condition

end Statement

namespace Block

/-- A block that is not empty and has nothing but choices. -/
def allChoices (block : Block) : Bool :=
  !block.isEmpty && block.all Statement.isChoice

end Block

mutual

/-- The statements at every depth, the statement itself included. -/
def Statement.size : Statement → Nat
  | .choice _ body => 1 + Block.size body
  | .branch _ thenBody elseBody => 1 + Block.size thenBody + Block.size elseBody
  | _ => 1

def Block.size : List Statement → Nat
  | [] => 0
  | statement :: rest => statement.size + Block.size rest

end

mutual

/-- How many blocks lie inside one another below the statement. -/
def Statement.depth : Statement → Nat
  | .choice _ body => Block.depth body
  | .branch _ thenBody elseBody => max (Block.depth thenBody) (Block.depth elseBody)
  | _ => 0

/-- A block counts as one level, also when it is empty. -/
def Block.depth : List Statement → Nat
  | [] => 1
  | statement :: rest => max (statement.depth + 1) (Block.depth rest)

end

/-- A statement met on a walk, with the statements behind it in its own block. -/
structure Visit where
  statement : Statement
  behind : Block

mutual

def Statement.innerVisits : Statement → List Visit
  | .choice _ body => Block.visits body
  | .branch _ thenBody elseBody => Block.visits thenBody ++ Block.visits elseBody
  | _ => []

/-- All statements of a block at every depth, each before those inside it. -/
def Block.visits : List Statement → List Visit
  | [] => []
  | statement :: rest => ⟨statement, rest⟩ :: (statement.innerVisits ++ Block.visits rest)

end

/-- A scene carries the number of its header line, or zero if it has none. -/
structure Scene where
  id : String
  line : Nat
  body : Block
deriving DecidableEq, Inhabited

end SceneScript
