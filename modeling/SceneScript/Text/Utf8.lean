import SceneScript.Text.Ascii

/-!
# UTF-8

Encoding, decoding, and positions in a text counted in bytes.
-/

namespace SceneScript.Text

set_option autoImplicit false

def encode (text : List Char) : List UInt8 :=
  text.flatMap String.utf8EncodeChar

def decode? (bytes : List UInt8) : Option (List Char) :=
  bytes.toByteArray.utf8Decode?.map Array.toList

theorem decode?_encode (text : List Char) : decode? (encode text) = some text := by
  have whole : (encode text).toByteArray = text.utf8Encode := rfl
  simp [decode?, whole, List.utf8Decode?_utf8Encode]

/-- The text from a byte offset on, if the offset lies in the text and between two characters. -/
def dropBytes? : Nat → List Char → Option (List Char)
  | 0, text => some text
  | _ + 1, [] => none
  | offset + 1, c :: rest =>
    if c.utf8Size ≤ offset + 1 then dropBytes? (offset + 1 - c.utf8Size) rest else none

end SceneScript.Text
