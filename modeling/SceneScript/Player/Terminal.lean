import SceneScript.Player.Config
import SceneScript.Player.Sink
import SceneScript.Story.Host
import SceneScript.Text.Numeral

/-!
# The terminal

A host that writes lines and reads answers from lines. A menu is asked again until a line is the
number of an item or the input ends. After the first fault nothing is read or written any more.
-/

namespace SceneScript

open SceneScript.Text

set_option autoImplicit false

/--
The input that is left, what reading meets behind it instead of an end, the state of the output, and
the first fault.
-/
structure Terminal (τ : Type) where
  input : List UInt8
  broken : Option StreamFault
  output : τ
  fault : Option StreamFault

namespace Terminal

variable {τ : Type}

def new (input : List UInt8) (output : τ) : Terminal τ where
  input := input
  broken := none
  output := output
  fault := none

/-- The first line of the input with its line feed, and the rest. -/
def splitLine (input : List UInt8) : List UInt8 × List UInt8 :=
  match input.dropWhile (· ≠ 10) with
  | [] => (input, [])
  | feed :: rest => (input.takeWhile (· ≠ 10) ++ [feed], rest)

/-- Reads a line, or none at the end of the input; gives the rest of the input too. -/
def readLine (input : List UInt8) (broken : Option StreamFault) :
    Except StreamFault (Option (List Char)) × List UInt8 :=
  match if 10 ∈ input then none else broken with
  | some fault => (.error fault, [])
  | none =>
    if input.isEmpty then
      (.ok none, [])
    else
      let (line, rest) := splitLine input
      match decode? line with
      | none => (.error .notUtf8, rest)
      | some answer => (.ok (some answer), rest)

/-- The position of the item that an answer names; items are numbered from one. -/
def selection? (count : Nat) (answer : List Char) : Option Nat :=
  (wholeNat? (trim answer)).bind fun number =>
    if 1 ≤ number ∧ number ≤ count then some (number - 1) else none

/-- Writes bytes unless there is a fault; no bytes are not written. -/
def put (sink : Sink τ) (bytes : List UInt8) (terminal : Terminal τ) : Terminal τ :=
  if terminal.fault.isSome || bytes.isEmpty then
    terminal
  else
    let (fault, output) := sink.write bytes terminal.output
    { terminal with output := output, fault := fault }

def flush (sink : Sink τ) (terminal : Terminal τ) : Terminal τ :=
  if terminal.fault.isSome then
    terminal
  else
    let (fault, output) := sink.flush terminal.output
    { terminal with output := output, fault := fault }

/-- A line and its line feed are written one after the other. -/
def emit (sink : Sink τ) (line : String) (terminal : Terminal τ) : Terminal τ :=
  (terminal.put sink (encode line.toList)).put sink (encode ['\n'])

def read (terminal : Terminal τ) : Option (List Char) × Terminal τ :=
  if terminal.fault.isSome then
    (none, terminal)
  else
    match readLine terminal.input terminal.broken with
    | (.error fault, rest) => (none, { terminal with input := rest, fault := some fault })
    | (.ok answer, rest) => (answer, { terminal with input := rest })

@[simp] theorem input_put (sink : Sink τ) (bytes : List UInt8) (terminal : Terminal τ) :
    (terminal.put sink bytes).input = terminal.input := by
  unfold put
  split <;> rfl

@[simp] theorem input_flush (sink : Sink τ) (terminal : Terminal τ) :
    (terminal.flush sink).input = terminal.input := by
  unfold flush
  split <;> rfl

@[simp] theorem input_emit (sink : Sink τ) (line : String) (terminal : Terminal τ) :
    (terminal.emit sink line).input = terminal.input := by
  simp [emit]

theorem splitLine_suffix (input : List UInt8) : (splitLine input).2 <:+ input := by
  unfold splitLine
  split
  · exact List.nil_suffix
  · rename_i feed rest dropped
    have behind := List.dropWhile_suffix (l := input) (p := (· ≠ 10))
    rw [dropped] at behind
    exact (List.suffix_cons feed rest).trans behind

theorem splitLine_rest_lt {input : List UInt8} (more : input ≠ []) :
    (splitLine input).2.length < input.length := by
  unfold splitLine
  split
  · exact List.length_pos_iff.2 more
  · rename_i feed rest dropped
    have shorter := (List.dropWhile_suffix (l := input) (p := (· ≠ 10))).length_le
    simp only [dropped, List.length_cons] at shorter
    exact Nat.lt_of_succ_le shorter

theorem readLine_suffix (input : List UInt8) (broken : Option StreamFault) :
    (readLine input broken).2 <:+ input := by
  unfold readLine
  split
  · exact List.nil_suffix
  · split
    · exact List.nil_suffix
    · dsimp only
      split <;> exact splitLine_suffix input

theorem readLine_lt {input rest : List UInt8} {broken : Option StreamFault} {answer : List Char}
    (reads : readLine input broken = (.ok (some answer), rest)) : rest.length < input.length := by
  unfold readLine at reads
  split at reads
  · cases reads
  · split at reads
    · cases reads
    · rename_i more
      dsimp only at reads
      split at reads
      · cases reads
      · cases reads
        apply splitLine_rest_lt
        rintro rfl
        exact more rfl

theorem input_read_suffix (terminal : Terminal τ) : terminal.read.2.input <:+ terminal.input := by
  have left := readLine_suffix terminal.input terminal.broken
  unfold read
  split
  · exact List.suffix_refl _
  · split <;> simp_all

theorem input_read_lt {terminal left : Terminal τ} {answer : List Char}
    (reads : terminal.read = (some answer, left)) :
    left.input.length < terminal.input.length := by
  unfold read at reads
  split at reads
  · cases reads
  · split at reads
    · cases reads
    · rename_i given rest line
      cases reads
      exact readLine_lt line

def imageLine (path : String) : String :=
  "[图片] " ++ path

def styleLine (style : Style) : String :=
  "[样式] 背景 " ++ style.background ++ " / 前景 " ++ style.foreground ++ " / 字体 " ++ style.font
    ++ " / 字号 " ++ toString style.fontSize.toInt

def itemLine (label : String) (position : Nat) : String :=
  "  " ++ toString (position + 1) ++ ") " ++ label

def rejection (count : Nat) : String :=
  "请输入 1 到 " ++ toString count ++ " 之间的数字"

def render (config : Config) (sink : Sink τ) (display : Display) (terminal : Terminal τ) :
    Terminal τ :=
  match display with
  | .text content => terminal.emit sink content
  | .image path => terminal.emit sink (imageLine path)
  | .clear =>
    if config.clearMarker.isEmpty then terminal else terminal.emit sink config.clearMarker
  | .style style =>
    if config.showStyleChanges then terminal.emit sink (styleLine style) else terminal

def prompt (config : Config) (sink : Sink τ) (terminal : Terminal τ) : Terminal τ :=
  (terminal.put sink (encode config.choicePrompt.toList)).flush sink

@[simp] theorem input_prompt (config : Config) (sink : Sink τ) (terminal : Terminal τ) :
    (terminal.prompt config sink).input = terminal.input := by
  simp [prompt]

/-- Prompts for an answer until a line selects an item, the input ends or something fails. -/
def await (config : Config) (sink : Sink τ) (count : Nat) (terminal : Terminal τ) :
    Option Nat × Terminal τ :=
  match _ : (terminal.prompt config sink).read with
  | (none, left) => (none, left)
  | (some answer, left) =>
    match selection? count answer with
    | some position => (some position, left)
    | none => await config sink count (left.emit sink (rejection count))
termination_by terminal.input.length
decreasing_by
  rename_i reads
  have shorter := input_read_lt reads
  rw [input_prompt] at shorter
  simpa only [input_emit] using shorter

def list (sink : Sink τ) (labels : List String) (terminal : Terminal τ) : Terminal τ :=
  labels.zipIdx.foldl (fun terminal (label, position) => terminal.emit sink (itemLine label position))
    terminal

def ask (config : Config) (sink : Sink τ) (labels : List String) (terminal : Terminal τ) :
    Option Nat × Terminal τ :=
  (terminal.list sink labels).await config sink labels.length

def takeFault (terminal : Terminal τ) : Option StreamFault × Terminal τ :=
  (terminal.fault, { terminal with fault := none })

theorem input_render (config : Config) (sink : Sink τ) (display : Display)
    (terminal : Terminal τ) : (terminal.render config sink display).input = terminal.input := by
  cases display with
  | text | image => simp [render]
  | clear | style =>
    simp only [render]
    split <;> simp

theorem input_list (sink : Sink τ) (labels : List String) (terminal : Terminal τ) :
    (terminal.list sink labels).input = terminal.input := by
  unfold list
  generalize labels.zipIdx = items
  induction items generalizing terminal with
  | nil => rfl
  | cons item rest ih => simp [ih]

/-- Awaiting an answer never adds input, and a selection takes at least one line. -/
theorem input_await (config : Config) (sink : Sink τ) (count : Nat) (terminal : Terminal τ) :
    (terminal.await config sink count).2.input.length
        + (if (terminal.await config sink count).1.isSome then 1 else 0) ≤
      terminal.input.length := by
  fun_induction await config sink count terminal with
  | case1 terminal left reads =>
    have behind := input_read_suffix (terminal.prompt config sink)
    rw [reads, input_prompt] at behind
    simpa using behind.length_le
  | case2 terminal answer left reads position selects =>
    have shorter := input_read_lt reads
    rw [input_prompt] at shorter
    simpa using Nat.succ_le_of_lt shorter
  | case3 terminal answer left reads rejects ih =>
    have shorter := input_read_lt reads
    rw [input_prompt] at shorter
    rw [input_emit] at ih
    omega

/-- The terminal as a host. Texts and labels are shown as they are. -/
def host (config : Config) (sink : Sink τ) : Host (Terminal τ) where
  resolve key := key
  render := render config sink
  ask := ask config sink
  patience terminal := terminal.input.length
  render_le display terminal :=
    Nat.le_of_eq (congrArg List.length (input_render config sink display terminal))
  ask_le labels terminal := by
    have bound := input_await config sink labels.length (terminal.list sink labels)
    rw [input_list] at bound
    unfold ask
    omega
  ask_lt labels terminal := by
    intro answered
    have bound := input_await config sink labels.length (terminal.list sink labels)
    unfold ask at answered ⊢
    rw [input_list, if_pos answered] at bound
    omega

end Terminal

end SceneScript
