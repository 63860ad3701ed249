import Mathlib.Data.List.TakeWhile
import SceneScript.Player.Run
import SceneScript.Proofs.Player.Truncation
import SceneScript.Proofs.Text.Rows

/-!
# The first line that names an item

At a menu the terminal reads line after line until one is the number of an item. What it writes and
how much it reads is known from the lines: a prompt for each line, a rejection behind each line that
names no item, and nothing is read behind the line that does.
-/

namespace SceneScript

open SceneScript.Text

set_option autoImplicit false

namespace Terminal

variable {τ : Type}

section Names

variable {count number : Nat} {answer : List Char}

end Names

/-- No fault was met, the input ends without one, and nothing that is written will fail. -/
structure Ready (sink : Sink τ) (terminal : Terminal τ) : Prop where
  sound : terminal.fault = none
  ends : terminal.broken = none
  never : sink.NeverFails terminal.output

/-- A terminal that bytes were written on and nothing else was done. -/
structure Writes (sink : Sink τ) (bytes : List UInt8) (earlier later : Terminal τ) : Prop where
  ready : Ready sink later
  input : later.input = earlier.input
  written : sink.written later.output = sink.written earlier.output ++ bytes

section Writes

variable {sink : Sink τ} {terminal : Terminal τ} {first second third : Terminal τ}
  {bytes others : List UInt8}

theorem Writes.trans (before : Writes sink bytes first second)
    (behind : Writes sink others second third) : Writes sink (bytes ++ others) first third := by
  refine ⟨behind.ready, behind.input.trans before.input, ?_⟩
  rw [behind.written, before.written, List.append_assoc]

end Writes

section Rows

variable {sink : Sink τ} {terminal : Terminal τ} {text row : List Char}
  {others : List (List Char)}

theorem byte_ne_feed (single : '\n' ∉ text) : ∀ byte ∈ encode text, decide (byte ≠ 10) = true := by
  intro byte member
  refine decide_eq_true ?_
  rintro rfl
  exact feed_not_mem_encode single member

theorem splitLine_feed {body : List Char} (single : '\n' ∉ body) (rest : List Char) :
    splitLine (encode (body ++ '\n' :: rest)) = (encode (body ++ ['\n']), encode rest) := by
  have passed := byte_ne_feed single
  rw [splitLine, encode_append, encode_append, encode_feed, encode_feed,
    List.dropWhile_append_of_pos passed, List.takeWhile_append_of_pos passed,
    List.dropWhile_cons_of_neg (by decide), List.takeWhile_cons_of_neg (by decide),
    List.append_nil]
  rfl

theorem splitLine_last (single : '\n' ∉ text) : splitLine (encode text) = (encode text, []) := by
  have none : (encode text).dropWhile (· ≠ 10) = [] :=
    List.dropWhile_eq_nil_iff.2 (byte_ne_feed single)
  rw [splitLine, none]

theorem readLine_row (cut : rows text = row :: others) :
    readLine (encode text) none = (.ok (some row), encode others.flatten) := by
  have filled : text ≠ [] := by
    rintro rfl
    cases cut
  have more : (encode text).isEmpty = false := List.isEmpty_eq_false_iff.2 (encode_ne_nil filled)
  rw [readLine, ite_self, more]
  rcases rows_cases cut with ⟨body, rest, single, rfl, rfl, rfl⟩ | ⟨single, -, rfl, rfl⟩
  · rw [splitLine_feed single, flatten_rows]
    simp [decode?_encode]
  · rw [splitLine_last single]
    simp only [decode?_encode]
    rfl

theorem read_row (ready : Ready sink terminal) (given : terminal.input = encode text)
    (cut : rows text = row :: others) :
    terminal.read = (some row, { terminal with input := encode others.flatten }) := by
  rw [read, given, ready.ends, readLine_row cut]
  simp [ready.sound]

end Rows

section Await

variable {sink : Sink τ} {terminal : Terminal τ} {count : Nat} {text : List Char}
  {rejected others : List (List Char)}

/-- What is written for a row that names no item: the prompt before it, and the rejection behind. -/
def again (config : Config) (count : Nat) : List UInt8 :=
  encode config.choicePrompt.toList ++ Player.outputLines [rejection count]

end Await

end Terminal

end SceneScript
