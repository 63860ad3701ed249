/-!
# Command lines

Options have a long name behind two dashes and may have a letter behind one dash. Letters may be put
together. A value is attached with an equals sign, directly behind a letter, or is the next argument
if that does not start with a dash. What is no option is an operand; behind two dashes alone
everything is.

Arguments are read from left to right. The first one that does not fit is a misuse, and an option
that asks for a notice ends reading, whatever stands behind it.
-/

namespace SceneScript.CommandLine

set_option autoImplicit false

/--
An option is given at most once, any number of times, or at most once and with a value; or it asks
for a text to be shown instead of anything else.
-/
inductive Arity where
  | flag
  | counter
  | value (mayBeEmpty : Bool)
  | notice (text : String)
deriving DecidableEq

structure OptionSpec where
  name : String
  letter : Option Char
  arity : Arity
deriving DecidableEq

/-- The options of a command, and how many operands it takes at most. -/
structure Form where
  options : List OptionSpec
  operands : Nat
deriving DecidableEq

/-- A part of a command line; `plain` may be a value or an operand. -/
inductive Piece where
  | named (spec : OptionSpec) (attached : Option String)
  | plain (text : String)
  | operand (text : String)
  | unknown
deriving DecidableEq

/-- The value attached to a letter; an equals sign before it is left out. -/
def attachedValue : List Char → Option String
  | [] => none
  | '=' :: value => some (String.ofList value)
  | value => some (String.ofList value)

def letters (options : List OptionSpec) : List Char → List Piece
  | [] => []
  | letter :: rest =>
    match options.find? fun spec => spec.letter = some letter with
    | none => [.unknown]
    | some spec =>
      match spec.arity with
      | .value _ => [.named spec (attachedValue rest)]
      | _ => .named spec none :: letters options rest

def long (options : List OptionSpec) (text : List Char) : Piece :=
  let name := String.ofList (text.takeWhile (· ≠ '='))
  let attached := match text.dropWhile (· ≠ '=') with
    | [] => none
    | _ :: value => some (String.ofList value)
  match options.find? fun spec => spec.name = name with
  | some spec => .named spec attached
  | none => .unknown

def pieces (options : List OptionSpec) : List String → List Piece
  | [] => []
  | argument :: rest =>
    match argument.toList with
    | ['-', '-'] => rest.map .operand
    | '-' :: '-' :: text => long options text :: pieces options rest
    | '-' :: letter :: text => letters options (letter :: text) ++ pieces options rest
    | _ => .plain argument :: pieces options rest

structure Arguments where
  options : List (OptionSpec × String)
  operands : List String
deriving DecidableEq

namespace Arguments

def empty : Arguments where
  options := []
  operands := []

def value? (arguments : Arguments) (name : String) : Option String :=
  (arguments.options.find? fun option => option.1.name = name).map Prod.snd

def has (arguments : Arguments) (name : String) : Bool :=
  (arguments.value? name).isSome

def withOption (arguments : Arguments) (spec : OptionSpec) (value : String) : Arguments :=
  { arguments with options := arguments.options ++ [(spec, value)] }

def withOperand (arguments : Arguments) (operand : String) : Arguments :=
  { arguments with operands := arguments.operands ++ [operand] }

end Arguments

inductive Reading (α : Type) where
  | request (value : α)
  | notice (text : String)
  | misuse
deriving DecidableEq

def Reading.map {α β : Type} (convert : α → β) : Reading α → Reading β
  | request value => .request (convert value)
  | notice text => .notice text
  | misuse => .misuse

namespace Form

/-- Adds an operand, if it is not empty and there is room for it. -/
def addOperand? (form : Form) (found : Arguments) (text : String) : Option Arguments :=
  if text.isEmpty || form.operands ≤ found.operands.length then none
  else some (found.withOperand text)

/-- Adds an option without a value; only a counter may be repeated. -/
def addFlag? (found : Arguments) (spec : OptionSpec) : Option Arguments :=
  if spec.arity = .counter || !found.has spec.name then some (found.withOption spec "") else none

def addValue? (found : Arguments) (spec : OptionSpec) (mayBeEmpty : Bool) (value : String) :
    Option Arguments :=
  if found.has spec.name || (value.isEmpty && !mayBeEmpty) then none
  else some (found.withOption spec value)

def gather (form : Form) (found : Arguments) : List Piece → Reading Arguments
  | [] => .request found
  | .unknown :: _ => .misuse
  | .plain text :: rest | .operand text :: rest =>
    match form.addOperand? found text with
    | some more => form.gather more rest
    | none => .misuse
  | .named spec attached :: rest =>
    match spec.arity, attached, rest with
    | .notice text, none, _ => .notice text
    | .value mayBeEmpty, some value, rest | .value mayBeEmpty, none, .plain value :: rest =>
      match addValue? found spec mayBeEmpty value with
      | some more => form.gather more rest
      | none => .misuse
    | .flag, none, rest | .counter, none, rest =>
      match addFlag? found spec with
      | some more => form.gather more rest
      | none => .misuse
    | _, _, _ => .misuse

def read (form : Form) (arguments : List String) : Reading Arguments :=
  form.gather .empty (pieces form.options arguments)

end Form

end SceneScript.CommandLine
