import SceneScript.Condition.Basic
import SceneScript.Condition.Fault

/-!
# Reading conditions

The grammar, from the loosest to the tightest operator:

    disjunction := conjunction ("or" conjunction)*
    conjunction := operand ("and" operand)*
    operand     := "not" operand | "(" disjunction ")" | "has" NAME | NAME | "true" | "false"

Both chains associate to the left. Each reader takes tokens from the front and leaves fewer than it
was given, so the chains end. `depthLimit` bounds both the nesting of the tokens and the height of
the tree.
-/

namespace SceneScript.Condition

set_option autoImplicit false

structure Parsed (tokens : List Token) where
  condition : Condition
  rest : List Token
  shorter : rest.length < tokens.length

abbrev Reader : Type :=
  (tokens : List Token) → Except Flaw (Parsed tokens)

def checkHeight (condition : Condition) : Except Flaw Condition :=
  if condition.height ≤ depthLimit then .ok condition else .error .tooDeep

/-- Extends `left` by further operands as long as the operator stands in front. -/
def chainTail (operator : Token) (join : Condition → Condition → Condition) (operand : Reader)
    (left : Condition) (tokens : List Token) :
    Except Flaw (Condition × { rest : List Token // rest.length ≤ tokens.length }) :=
  match tokens with
  | [] => .ok (left, ⟨[], Nat.le_refl _⟩)
  | token :: others =>
    if token = operator then
      match operand others with
      | .error flaw => .error flaw
      | .ok right =>
        match checkHeight (join left right.condition) with
        | .error flaw => .error flaw
        | .ok joined =>
          have := right.shorter
          match chainTail operator join operand joined right.rest with
          | .error flaw => .error flaw
          | .ok (whole, rest) =>
            .ok (whole, ⟨rest.val, by have := rest.property; simp only [List.length_cons]; omega⟩)
    else
      .ok (left, ⟨token :: others, Nat.le_refl _⟩)
termination_by tokens.length

def chain (operator : Token) (join : Condition → Condition → Condition) (operand : Reader) :
    Reader := fun tokens =>
  match operand tokens with
  | .error flaw => .error flaw
  | .ok first =>
    match chainTail operator join operand first.condition first.rest with
    | .error flaw => .error flaw
    | .ok (whole, rest) =>
      .ok ⟨whole, rest.val, by have := rest.property; have := first.shorter; omega⟩

def conjunction (operand : Reader) : Reader :=
  chain .and .conj operand

def disjunction (operand : Reader) : Reader :=
  chain .or .disj (conjunction operand)

/-- Reads an operand that may open at most `allowance` further parentheses and `not`s. -/
def operand (allowance : Nat) : Reader
  | [] => .error .unexpectedEnd
  | .not :: rest =>
    match allowance with
    | 0 => .error .tooDeep
    | deeper + 1 =>
      match operand deeper rest with
      | .error flaw => .error flaw
      | .ok inner =>
        match checkHeight (.neg inner.condition) with
        | .error flaw => .error flaw
        | .ok negated =>
          .ok ⟨negated, inner.rest, by have := inner.shorter; simp only [List.length_cons]; omega⟩
  | .opening :: rest =>
    match allowance with
    | 0 => .error .tooDeep
    | deeper + 1 =>
      match disjunction (operand deeper) rest with
      | .error flaw => .error flaw
      | .ok ⟨inner, .closing :: behind, shorter⟩ =>
        .ok ⟨inner, behind, by simp only [List.length_cons] at *; omega⟩
      | .ok _ => .error .missingClosing
  | .has :: .ident name :: rest =>
    .ok ⟨.has name, rest, by simp only [List.length_cons]; omega⟩
  | .has :: _ => .error .missingName
  | .ident name :: rest => .ok ⟨.ident name, rest, by simp⟩
  | .literal value :: rest => .ok ⟨.literal value, rest, by simp⟩
  | token :: _ => .error (.unexpectedToken token)

def parse (text : List Char) : Except Fault Condition :=
  match Token.scan text with
  | .error c => .error (.badCharacter c)
  | .ok tokens =>
    match disjunction (operand depthLimit) tokens with
    | .error flaw => .error (.malformed flaw)
    | .ok ⟨condition, [], _⟩ => .ok condition
    | .ok ⟨_, rest, _⟩ => .error (.trailing rest)

end SceneScript.Condition
