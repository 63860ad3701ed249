/-!
# Conditions

A condition asks which names the player has. `eval` decides it; `queries` lists the names that
deciding it looks up, in order, where the right side of a conjunction or disjunction is looked at
only if the left side leaves the answer open.
-/

namespace SceneScript

set_option autoImplicit false

/-- `has name` and a bare `name` mean the same and are kept apart as they were written. -/
inductive Condition where
  | conj (left right : Condition)
  | disj (left right : Condition)
  | neg (inner : Condition)
  | has (name : String)
  | ident (name : String)
  | literal (value : Bool)
deriving DecidableEq, Inhabited

namespace Condition

def eval (owned : String → Bool) : Condition → Bool
  | conj left right => left.eval owned && right.eval owned
  | disj left right => left.eval owned || right.eval owned
  | neg inner => !inner.eval owned
  | has name => owned name
  | ident name => owned name
  | literal value => value

def queries (owned : String → Bool) : Condition → List String
  | conj left right =>
    left.queries owned ++ if left.eval owned then right.queries owned else []
  | disj left right =>
    left.queries owned ++ if left.eval owned then [] else right.queries owned
  | neg inner => inner.queries owned
  | has name => [name]
  | ident name => [name]
  | literal _ => []

def height : Condition → Nat
  | conj left right => max left.height right.height + 1
  | disj left right => max left.height right.height + 1
  | neg inner => inner.height + 1
  | _ => 1

/-- The condition with a pair of parentheses around every operator. -/
def render : Condition → String
  | conj left right => "(" ++ left.render ++ " and " ++ right.render ++ ")"
  | disj left right => "(" ++ left.render ++ " or " ++ right.render ++ ")"
  | neg inner => "(not " ++ inner.render ++ ")"
  | has name => "has " ++ name
  | ident name => name
  | literal true => "true"
  | literal false => "false"

end Condition

end SceneScript
