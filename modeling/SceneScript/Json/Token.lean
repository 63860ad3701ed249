import SceneScript.Json.Basic

/-!
# Tokens of JSON text

A text is cut into tokens one character at a time. A run of characters outside strings that is
neither a blank nor a mark is one bare word: a literal name or a number.
-/

namespace SceneScript.Json

set_option autoImplicit false

/-- `text none` is a string with half of a surrogate pair; `atom` is a literal name or a number. -/
inductive Token where
  | openArray
  | closeArray
  | openObject
  | closeObject
  | comma
  | colon
  | text (value : Option String)
  | atom (value : Json)

def isSpace (c : Char) : Bool :=
  c == ' ' || c == '\t' || c == '\n' || c == '\r'

def mark? (c : Char) : Option Token :=
  match c with
  | '[' => some .openArray
  | ']' => some .closeArray
  | '\x7b' => some .openObject
  | '\x7d' => some .closeObject
  | ',' => some .comma
  | ':' => some .colon
  | _ => none

def isExponent (word : List Char) : Bool :=
  let digits := match word with
    | '+' :: rest => rest
    | '-' :: rest => rest
    | _ => word
  !digits.isEmpty && digits.all Char.isDigit

def isScale : List Char → Bool
  | [] => false
  | c :: word => (c == 'e' || c == 'E') && isExponent word

/-- What may follow the integer digits of a number that is not an integer. -/
def isFraction (word : List Char) : Bool :=
  match word with
  | '.' :: rest =>
    let behind := rest.dropWhile Char.isDigit
    !(rest.takeWhile Char.isDigit).isEmpty && (behind.isEmpty || isScale behind)
  | _ => isScale word

/--
A number: an optional minus sign, digits without a superfluous zero in front, and for a number that
is not an integer a fraction, an exponent or both.
-/
def number? (word : List Char) : Option Json :=
  let (negative, rest) := match word with
    | '-' :: rest => (true, rest)
    | _ => (false, word)
  let digits := rest.takeWhile Char.isDigit
  let behind := rest.dropWhile Char.isDigit
  let magnitude := Text.digitsValue digits
  if digits.isEmpty || (digits.length > 1 && digits.head? == some '0') then
    none
  else if behind.isEmpty && !(negative && magnitude == 0) then
    some (int (if negative then -(magnitude : Int) else magnitude))
  else if behind.isEmpty || isFraction behind then
    some (real (String.ofList word))
  else
    none

def atom? (word : List Char) : Option Json :=
  if word == "null".toList then some null
  else if word == "true".toList then some (bool true)
  else if word == "false".toList then some (bool false)
  else number? word

inductive Escape where
  | outside
  | slash
  | hex (left : Nat) (value : Nat)

/-- A string so far: its characters, last one first, and a high surrogate that waits for its pair. -/
structure StringScan where
  reversed : List Char
  high : Option Nat
  paired : Bool
  escape : Escape

namespace StringScan

def start : StringScan where
  reversed := []
  high := none
  paired := true
  escape := .outside

/-- Adds a character; a high surrogate before it stays alone. -/
def add (scan : StringScan) (c : Char) : StringScan where
  reversed := c :: scan.reversed
  high := none
  paired := scan.paired && scan.high.isNone
  escape := .outside

def addUnit (scan : StringScan) (unit : Nat) : StringScan :=
  if 0xD800 ≤ unit && unit ≤ 0xDBFF then
    { scan with high := some unit, paired := scan.paired && scan.high.isNone, escape := .outside }
  else if 0xDC00 ≤ unit && unit ≤ 0xDFFF then
    match scan.high with
    | some high =>
      { scan with
        reversed := Char.ofNat (0x10000 + (high - 0xD800) * 0x400 + (unit - 0xDC00)) :: scan.reversed
        high := none
        escape := .outside }
    | none => { scan with paired := false, escape := .outside }
  else
    scan.add (Char.ofNat unit)

def value (scan : StringScan) : Option String :=
  if scan.paired && scan.high.isNone then some (String.ofList scan.reversed.reverse) else none

end StringScan

def hexDigit? (c : Char) : Option Nat :=
  if c.isDigit then some (c.toNat - '0'.toNat)
  else if 'a' ≤ c && c ≤ 'f' then some (c.toNat - 'a'.toNat + 10)
  else if 'A' ≤ c && c ≤ 'F' then some (c.toNat - 'A'.toNat + 10)
  else none

def simpleEscape? (c : Char) : Option Char :=
  match c with
  | '"' => some '"'
  | '\\' => some '\\'
  | '/' => some '/'
  | 'b' => some '\x08'
  | 'f' => some '\x0c'
  | 'n' => some '\n'
  | 'r' => some '\r'
  | 't' => some '\t'
  | _ => none

/-- Where a scan stands: between tokens, in a bare word (last character first) or in a string. -/
inductive Mode where
  | between
  | word (reversed : List Char)
  | string (scan : StringScan)

structure Scan where
  tokens : Array Token
  mode : Mode

namespace Scan

def start : Scan where
  tokens := #[]
  mode := .between

def endWord (tokens : Array Token) (reversed : List Char) : Option (Array Token) :=
  (atom? reversed.reverse).map fun value => tokens.push (.atom value)

def outside (tokens : Array Token) (c : Char) : Scan :=
  if isSpace c then ⟨tokens, .between⟩
  else if c == '"' then ⟨tokens, .string .start⟩
  else
    match mark? c with
    | some token => ⟨tokens.push token, .between⟩
    | none => ⟨tokens, .word [c]⟩

def inString (tokens : Array Token) (scan : StringScan) (c : Char) : Option Scan :=
  match scan.escape with
  | .outside =>
    if c == '"' then some ⟨tokens.push (.text scan.value), .between⟩
    else if c == '\\' then some ⟨tokens, .string { scan with escape := .slash }⟩
    else if c.toNat < 0x20 then none
    else some ⟨tokens, .string (scan.add c)⟩
  | .slash =>
    if c == 'u' then some ⟨tokens, .string { scan with escape := .hex 4 0 }⟩
    else (simpleEscape? c).map fun plain => ⟨tokens, .string (scan.add plain)⟩
  | .hex left value =>
    (hexDigit? c).map fun digit =>
      let unit := 16 * value + digit
      if left ≤ 1 then ⟨tokens, .string (scan.addUnit unit)⟩
      else ⟨tokens, .string { scan with escape := .hex (left - 1) unit }⟩

def step (scan : Scan) (c : Char) : Option Scan :=
  match scan.mode with
  | .between => some (outside scan.tokens c)
  | .word reversed =>
    if isSpace c || c == '"' || (mark? c).isSome then
      (endWord scan.tokens reversed).map fun tokens => outside tokens c
    else
      some ⟨scan.tokens, .word (c :: reversed)⟩
  | .string inner => inString scan.tokens inner c

def finish? (scan : Scan) : Option (Array Token) :=
  match scan.mode with
  | .between => some scan.tokens
  | .word reversed => endWord scan.tokens reversed
  | .string _ => none

end Scan

def tokens? (text : List Char) : Option (List Token) :=
  (text.foldlM Scan.step Scan.start).bind fun scan => scan.finish?.map Array.toList

end SceneScript.Json
