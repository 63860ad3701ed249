import SceneScript.Text.Utf8

/-!
# Quoted text

The inside of a double-quoted literal. A backslash stands before a character that is taken as it
is, except that `\n` is a line feed and `\t` a tab. Writing escapes exactly the backslash, the
quote, the line feed and the tab; reading takes back what writing produced and leaves the text
behind the closing quote alone.
-/

namespace SceneScript.Text.Quoted

set_option autoImplicit false

def escape : List Char → List Char
  | [] => []
  | c :: rest =>
    if c = '\n' then '\\' :: 'n' :: escape rest
    else if c = '\t' then '\\' :: 't' :: escape rest
    else if c = '\\' ∨ c = '"' then '\\' :: c :: escape rest
    else c :: escape rest

def unescape (c : Char) : Char :=
  if c = 'n' then '\n' else if c = 't' then '\t' else c

/-- A literal with its quotes. -/
def write (value : List Char) : List Char :=
  '"' :: escape value ++ ['"']

/--
Reads up to the closing quote, `escaped` telling whether a backslash stands before the text. Gives
the value and the text behind the closing quote, or nothing if the literal is not closed.
-/
def readFrom? : (escaped : Bool) → List Char → Option (List Char × List Char)
  | _, [] => none
  | true, c :: rest => (readFrom? false rest).map fun found => (unescape c :: found.1, found.2)
  | false, c :: rest =>
    if c = '"' then some ([], rest)
    else if c = '\\' then readFrom? true rest
    else (readFrom? false rest).map fun found => (c :: found.1, found.2)

def read? (text : List Char) : Option (List Char × List Char) :=
  readFrom? false text

theorem read?_escape (value rest : List Char) :
    read? (escape value ++ '"' :: rest) = some (value, rest) := by
  unfold read?
  induction value with
  | nil => simp [escape, readFrom?]
  | cons c value ih =>
    by_cases feed : c = '\n'
    · simp [escape, readFrom?, unescape, feed, ih]
    by_cases tab : c = '\t'
    · simp [escape, readFrom?, unescape, tab, ih]
    by_cases special : c = '\\' ∨ c = '"'
    · rcases special with rfl | rfl <;> simp [escape, readFrom?, unescape, ih]
    · have notSlash : c ≠ '\\' := fun same => special (Or.inl same)
      have notQuote : c ≠ '"' := fun same => special (Or.inr same)
      simp [escape, readFrom?, ih, feed, tab, notSlash, notQuote]

/--
Reads the literal whose opening quote is at a byte offset of the line. Gives the value and the
offset just behind the closing quote. An offset that is not in the line reads as no text.
-/
def readAt? (line : List Char) (start : Nat) : Option (List Char × Nat) :=
  (read? ((dropBytes? (start + 1) line).getD [])).map fun found =>
    (found.1, byteSize line - byteSize found.2)

end SceneScript.Text.Quoted
