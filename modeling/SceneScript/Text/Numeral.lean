import SceneScript.Text.Blank

/-!
# Decimal numerals

Two readers of decimal text: the number at the start of a word, and a whole answer that is one
number.
-/

namespace SceneScript.Text

set_option autoImplicit false

/-- Signed 64-bit words lie below this number, and not below its opposite. -/
def signedLimit : Nat := 0x8000000000000000

def unsignedLimit : Nat := 0x10000000000000000

/-- The number that a run of decimal digits stands for. -/
def digitsValue (digits : List Char) : Nat :=
  digits.foldl (fun value c => 10 * value + (c.toNat - '0'.toNat)) 0

def splitSign : List Char → Bool × List Char
  | '-' :: rest => (true, rest)
  | '+' :: rest => (false, rest)
  | text => (false, text)

/--
The signed number at the start of the text, after blanks. What follows the digits is ignored. The
magnitude has to fit a signed 64-bit word.
-/
def leadingInt? (text : List Char) : Option Int64 :=
  let (negative, rest) := splitSign (trimStart text)
  let digits := rest.takeWhile Char.isDigit
  if digits.isEmpty then
    none
  else
    let magnitude := digitsValue digits
    if magnitude < signedLimit then
      some (Int64.ofInt (if negative then -(magnitude : Int) else magnitude))
    else
      none

/-- A whole text that is an unsigned 64-bit number, with at most one plus sign before it. -/
def wholeNat? (text : List Char) : Option Nat :=
  let digits := match text with
    | '+' :: rest => rest
    | _ => text
  if digits.isEmpty || !digits.all Char.isDigit then
    none
  else
    let value := digitsValue digits
    if value < unsignedLimit then some value else none

end SceneScript.Text
