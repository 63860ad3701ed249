/-!
# Word characters and case

Keywords and names are made of ASCII letters, digits and underscores. Case is ignored for ASCII
letters only.
-/

namespace SceneScript.Text

set_option autoImplicit false

def isWordChar (c : Char) : Bool :=
  c.isAlphanum || c == '_'

/-- ASCII letters in lower case, everything else unchanged. -/
def lower (text : List Char) : List Char :=
  text.map Char.toLower

def sameLetter (a b : Char) : Bool :=
  a.toLower == b.toLower

def sameWord (a b : List Char) : Bool :=
  lower a == lower b

def byteSize : List Char → Nat
  | [] => 0
  | c :: rest => c.utf8Size + byteSize rest

/--
Whether the text starts with a keyword, ignoring case. The size of the text in bytes is compared
first; letters are then compared as long as both sides have one.
-/
def startsWithKeyword (text keyword : List Char) : Bool :=
  byteSize keyword ≤ byteSize text && (text.zip keyword).all fun pair => sameLetter pair.1 pair.2

end SceneScript.Text
