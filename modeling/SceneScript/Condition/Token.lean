import SceneScript.Text.Ascii
import SceneScript.Text.Blank

/-!
# Tokens of a condition

Parentheses, keywords in any case, and names. Tokens are cut at blanks and parentheses; a run of
word characters is one token.
-/

namespace SceneScript.Condition

open SceneScript.Text

set_option autoImplicit false

inductive Token where
  | opening
  | closing
  | and
  | or
  | not
  | has
  | literal (value : Bool)
  | ident (name : String)
deriving DecidableEq, Inhabited

namespace Token

def text : Token → String
  | opening => "("
  | closing => ")"
  | and => "and"
  | or => "or"
  | not => "not"
  | has => "has"
  | literal true => "true"
  | literal false => "false"
  | ident name => name

def keywords : List (List Char × Token) :=
  [("and".toList, and), ("or".toList, or), ("not".toList, not), ("has".toList, has),
    ("true".toList, literal true), ("false".toList, literal false)]

def ofWord (word : List Char) : Token :=
  (keywords.lookup (lower word)).getD (ident (String.ofList word))

def flush (word : List Char) (tokens : List Token) : List Token :=
  if word.isEmpty then tokens else ofWord word :: tokens

/--
Cuts the text from the right: the word that the text starts with, and the tokens behind that word.
Fails with the first character that no token has.
-/
def cut : List Char → Except Char (List Char × List Token)
  | [] => .ok ([], [])
  | c :: rest =>
    if isBlank c then
      (cut rest).map fun (word, tokens) => ([], flush word tokens)
    else if c = '(' then
      (cut rest).map fun (word, tokens) => ([], opening :: flush word tokens)
    else if c = ')' then
      (cut rest).map fun (word, tokens) => ([], closing :: flush word tokens)
    else if isWordChar c then
      (cut rest).map fun (word, tokens) => (c :: word, tokens)
    else
      .error c

/-- All tokens of the text, or the first character that no token has. -/
def scan (text : List Char) : Except Char (List Token) :=
  (cut text).map fun (word, tokens) => flush word tokens

def showAll (tokens : List Token) : String :=
  " ".intercalate (tokens.map text)

end Token

end SceneScript.Condition
