import SceneScript.Json.Basic

/-!
# Writing JSON text

Values are written without blanks and on one line: control characters and the other characters that
some readers take for a line end are written as escapes.
-/

namespace SceneScript.Json

set_option autoImplicit false

def hexDigit (value : Nat) : Char :=
  if value < 10 then Char.ofNat ('0'.toNat + value) else Char.ofNat ('a'.toNat + (value - 10))

def unicodeEscape (code : Nat) : String :=
  "\\u" ++ String.ofList
    [hexDigit (code / 0x1000 % 16), hexDigit (code / 0x100 % 16), hexDigit (code / 0x10 % 16),
      hexDigit (code % 16)]

/-- Characters that end a line for some readers. -/
def endsLine (c : Char) : Bool :=
  c == '\u0085' || c == '\u2028' || c == '\u2029'

def escapeChar (out : String) (c : Char) : String :=
  if c == '"' then out ++ "\\\""
  else if c == '\\' then out ++ "\\\\"
  else if c == '\n' then out ++ "\\n"
  else if c.toNat < 0x20 || endsLine c then out ++ unicodeEscape c.toNat
  else out.push c

def putString (out : String) (value : String) : String :=
  (value.toList.foldl escapeChar (out.push '"')).push '"'

mutual

/-- Writes a value behind what was written before. -/
def put (out : String) : Json → String
  | null => out ++ "null"
  | bool true => out ++ "true"
  | bool false => out ++ "false"
  | int value => out ++ toString value
  | real text => out ++ text
  | str value => putString out value
  | arr items => (putItems (out.push '[') items).push ']'
  | obj members => (putMembers (out.push '\x7b') members).push '\x7d'
  | unpaired => out ++ "null"

def putItems (out : String) : List Json → String
  | [] => out
  | [item] => put out item
  | item :: next :: rest => putItems ((put out item).push ',') (next :: rest)

def putMembers (out : String) : List (String × Json) → String
  | [] => out
  | [member] => putMember out member
  | member :: next :: rest => putMembers ((putMember out member).push ',') (next :: rest)

def putMember (out : String) : String × Json → String
  | (key, value) => put ((putString out key).push ':') value

end

def render (value : Json) : String :=
  put "" value

end SceneScript.Json
