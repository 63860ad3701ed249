import Mathlib.Algebra.Group.Nat.Even
import Mathlib.Data.List.DropRight
import Mathlib.Logic.Relation
import SceneScript.Proofs.Script.Literals
import SceneScript.Proofs.Script.Numbering
import SceneScript.Script.Parser

/-!
# Comments and indentation have no meaning

What stands before a place decides whether a semicolon there starts a comment: it does if an even
number of unescaped quotes stands before it and no backslash escapes it. Stripping keeps the longest
part of a line without such a semicolon. Trimming may cut an escaped blank and leave its backslash,
but it only ever shortens the line, so a line that was stripped and trimmed is scanned as it is. A
text can therefore be normalized line by line, indented and commented, and reads the same.
-/

namespace SceneScript

open SceneScript.Text

set_option autoImplicit false

/-- How many quotes before a place no backslash escapes. -/
def quotesBefore (escaped : Bool) (text : List Char) (place : Nat) : Nat :=
  (List.range place).countP fun earlier => Quoted.ClosesAt escaped text earlier

/--
A place that is outside quotes and behind no backslash that escapes it, for a scan that comes to the
text in a given mode. A scan that is inside quotes already has met one quote more.
-/
def OpenAt (mode : QuoteMode) (text : List Char) (place : Nat) : Prop :=
  Quoted.isEscaped mode.escaped text place = false ∧
    Even (mode.quoted.toNat + quotesBefore mode.escaped text place)

def CommentAt (mode : QuoteMode) (text : List Char) (place : Nat) : Prop :=
  text[place]? = some ';' ∧ OpenAt mode text place

theorem quotesBefore_cons (escaped : Bool) (c : Char) (rest : List Char) (place : Nat) :
    quotesBefore escaped (c :: rest) (place + 1) =
      quotesBefore (c == '\\' && !escaped) rest place +
        if Quoted.ClosesAt escaped (c :: rest) 0 then 1 else 0 := by
  have later : ∀ earlier, Quoted.ClosesAt escaped (c :: rest) (earlier + 1) ↔
      Quoted.ClosesAt (c == '\\' && !escaped) rest earlier := fun _ => Quoted.closesAt_cons
  rw [quotesBefore, quotesBefore, List.range_succ_eq_map, List.countP_cons, List.countP_map]
  simp [Function.comp_def, later]

section

variable {mode : QuoteMode} {line rest : List Char} {c : Char} {place : Nat}

theorem openAt_zero : OpenAt mode line 0 ↔ mode.isOpen = true := by
  obtain ⟨quoted, escaped⟩ := mode
  cases quoted <;> cases escaped <;>
    simp [OpenAt, Quoted.isEscaped, quotesBefore, QuoteMode.isOpen]

theorem openAt_cons : OpenAt mode (c :: rest) (place + 1) ↔ OpenAt (mode.next c) rest place := by
  obtain ⟨quoted, escaped⟩ := mode
  rw [OpenAt, OpenAt, Quoted.isEscaped_cons, quotesBefore_cons]
  cases escaped with
  | true => simp [QuoteMode.next, Quoted.ClosesAt, Quoted.isEscaped]
  | false =>
      by_cases slash : c = '\\'
      · simp [QuoteMode.next, Quoted.ClosesAt, slash]
      by_cases quote : c = '"'
      · cases quoted <;>
          simp [QuoteMode.next, Quoted.ClosesAt, Quoted.isEscaped, quote, Nat.even_add_one,
            Nat.even_add]
      · simp [QuoteMode.next, Quoted.ClosesAt, slash, quote, beq_eq_false_iff_ne.2 slash]

theorem commentAt_zero :
    CommentAt mode (c :: rest) 0 ↔ (decide (c = ';') && mode.isOpen) = true := by
  simp [CommentAt, openAt_zero]

theorem commentAt_cons :
    CommentAt mode (c :: rest) (place + 1) ↔ CommentAt (mode.next c) rest place := by
  rw [CommentAt, CommentAt, openAt_cons, List.getElem?_cons_succ]

theorem stripFrom_isPrefix (mode : QuoteMode) (line : List Char) :
    stripFrom mode line <+: line := by
  induction line generalizing mode with
  | nil => exact List.prefix_rfl
  | cons c rest ih =>
      rw [stripFrom]
      split
      · exact List.nil_prefix
      · exact List.cons_prefix_cons.2 ⟨rfl, ih (mode.next c)⟩

theorem not_commentAt_stripFrom (mode : QuoteMode) (line : List Char) (place : Nat) :
    ¬ CommentAt mode (stripFrom mode line) place := by
  induction line generalizing mode place with
  | nil => simp [stripFrom, CommentAt]
  | cons c rest ih =>
      rw [stripFrom]
      split
      · simp [CommentAt]
      · rename_i stays
        cases place with
        | zero =>
            rw [commentAt_zero]
            exact stays
        | succ place =>
            rw [commentAt_cons]
            exact ih (mode.next c) place

theorem isPrefix_stripFrom {front : List Char} (part : front <+: line)
    (bare : ∀ place, ¬ CommentAt mode front place) : front <+: stripFrom mode line := by
  induction line generalizing mode front with
  | nil => exact part
  | cons c rest ih =>
      rcases List.prefix_cons_iff.1 part with rfl | ⟨front, rfl, further⟩
      · exact List.nil_prefix
      · have stays := bare 0
        rw [commentAt_zero] at stays
        rw [stripFrom, if_neg stays]
        refine List.cons_prefix_cons.2 ⟨rfl, ih further ?_⟩
        intro place starts
        exact bare (place + 1) (commentAt_cons.2 starts)

theorem stripFrom_stripFrom (mode : QuoteMode) (line : List Char) :
    stripFrom mode (stripFrom mode line) = stripFrom mode line := by
  have whole := isPrefix_stripFrom List.prefix_rfl (not_commentAt_stripFrom mode line)
  exact ((stripFrom_isPrefix mode (stripFrom mode line)).eq_of_length_le whole.length_le)

theorem stripFrom_of_isPrefix {front : List Char} (part : front <+: line)
    (bare : stripFrom mode line = line) : stripFrom mode front = front := by
  induction line generalizing mode front with
  | nil =>
      rw [List.prefix_nil.1 part]
      rfl
  | cons c rest ih =>
      rcases List.prefix_cons_iff.1 part with rfl | ⟨front, rfl, further⟩
      · rfl
      · rw [stripFrom] at bare ⊢
        split at bare
        · cases bare
        · rename_i stays
          rw [if_neg stays, ih further (List.cons.inj bare).2]

theorem stripFrom_append_comment
    (free : OpenAt mode line line.length ∨ ∃ place, CommentAt mode line place)
    (note : List Char) : stripFrom mode (line ++ ';' :: note) = stripFrom mode line := by
  -- Unless a comment starts right here, the rest of the line is in the same case.
  induction line generalizing mode with
  | nil =>
      rcases free with outside | ⟨place, found, -⟩
      · have starts := openAt_zero.1 outside
        simp [stripFrom, starts]
      · cases found
  | cons c rest ih =>
      rw [List.cons_append, stripFrom, stripFrom]
      split
      · rfl
      · rename_i stays
        rw [ih]
        rcases free with outside | ⟨place, starts⟩
        · exact .inl (openAt_cons.1 outside)
        · cases place with
          | zero => exact absurd (commentAt_zero.1 starts) stays
          | succ place => exact .inr ⟨place, commentAt_cons.1 starts⟩

end

section Trimming

variable {text front blanks : List Char}

theorem trimStart_of_isPrefix (part : front <+: text) (solid : trimStart text = text) :
    trimStart front = front := by
  cases front with
  | nil => rfl
  | cons c front =>
      obtain ⟨behind, rfl⟩ := part
      rw [trimStart, List.cons_append, List.dropWhile_eq_self_iff] at solid
      rw [trimStart, List.dropWhile_eq_self_iff]
      intro inside
      exact solid (Nat.zero_lt_succ _)

theorem trim_trim (text : List Char) : trim (trim text) = trim text := by
  have started : trimStart (trimStart text) = trimStart text := List.dropWhile_idempotent _ _
  have front := trimStart_of_isPrefix (trimEnd_isPrefix (trimStart text)) started
  rw [trim, trim, front, trimEnd, trimEnd, List.reverse_reverse, List.dropWhile_idempotent]

theorem trim_isInfix (text : List Char) : trim text <:+: text :=
  (trimEnd_isPrefix _).isInfix.trans (List.dropWhile_suffix _).isInfix

theorem trim_blanks (blank : ∀ c ∈ blanks, isBlank c = true) (text : List Char) :
    trim (blanks ++ text) = trim text := by
  rw [trim, trim, trimStart, trimStart, List.dropWhile_append_of_pos blank]

theorem ne_of_isBlank {c sign : Char} (blank : isBlank c = true) (solid : isBlank sign = false) :
    c ≠ sign := by
  rintro rfl
  rw [blank] at solid
  cases solid

theorem stripComment_blanks (blank : ∀ c ∈ blanks, isBlank c = true) (text : List Char) :
    stripComment (blanks ++ text) = blanks ++ stripComment text := by
  apply stripFrom_bare
  intro c member
  have white := blank c member
  exact ⟨ne_of_isBlank white (by decide), ne_of_isBlank white (by decide),
    ne_of_isBlank white (by decide)⟩

theorem stripComment_trim (line : List Char) :
    stripComment (trim (stripComment line)) = trim (stripComment line) := by
  have bare : stripComment (stripComment line) = stripComment line :=
    stripFrom_stripFrom .start line
  have blank : ∀ c ∈ (stripComment line).takeWhile isBlank, isBlank c = true :=
    fun c member => List.mem_takeWhile_imp member
  have split := List.takeWhile_append_dropWhile (p := isBlank) (l := stripComment line)
  have inner : stripComment (trimStart (stripComment line)) = trimStart (stripComment line) := by
    have whole := stripComment_blanks blank (trimStart (stripComment line))
    rw [trimStart, split, bare] at whole
    exact List.append_cancel_left (whole.symm.trans split.symm)
  exact stripFrom_of_isPrefix (trimEnd_isPrefix _) inner

end Trimming

/-- A text with each line stripped and trimmed, and a line feed between any two. -/
def normalized (text : List Char) : List Char :=
  ['\n'].intercalate ((lines text).map fun line => trim (stripComment line))

namespace Line

theorem ofRaw?_normalized (raw : List Char) (number : Nat) :
    ofRaw? (trim (stripComment raw)) number = ofRaw? raw number := by
  rw [ofRaw?, ofRaw?, stripComment_trim, trim_trim]

theorem ofRaw?_indented {blanks : List Char} (blank : ∀ c ∈ blanks, isBlank c = true)
    (raw : List Char) (number : Nat) : ofRaw? (blanks ++ raw) number = ofRaw? raw number := by
  rw [ofRaw?, ofRaw?, stripComment_blanks blank, trim_blanks blank]

theorem ofRaw?_commented {raw : List Char}
    (free : OpenAt .start raw raw.length ∨ ∃ place, CommentAt .start raw place)
    (note : List Char) (number : Nat) : ofRaw? (raw ++ ';' :: note) number = ofRaw? raw number := by
  rw [ofRaw?, ofRaw?, stripComment, stripComment, stripFrom_append_comment free]

theorem ofRaw?_return (raw : List Char) (number : Nat) :
    ofRaw? (raw ++ ['\r']) number = ofRaw? raw number := by
  rw [← ofRaw?_dropReturn (raw ++ ['\r']), dropReturn, if_pos (by simp), List.dropLast_concat]

theorem keep_map {change : List Char → List Char}
    (same : ∀ raw number, ofRaw? (change raw) number = ofRaw? raw number) (first : Nat)
    (raws : List (List Char)) : keep first (raws.map change) = keep first raws := by
  induction raws generalizing first with
  | nil => rfl
  | cons raw rest ih => rw [List.map_cons, keep_cons, keep_cons, same, ih]

end Line

theorem feed_not_mem_splitOn {text piece : List Char} (member : piece ∈ text.splitOn '\n') :
    '\n' ∉ piece := by
  induction text generalizing piece with
  | nil => simp_all
  | cons c rest ih =>
      obtain ⟨first, others, pieces⟩ :=
        List.exists_cons_of_ne_nil (List.splitOn_ne_nil '\n' rest)
      rw [List.splitOn_cons_eq_if_modifyHead, pieces] at member
      rw [pieces] at ih
      split at member
      · rcases List.mem_cons.1 member with rfl | later
        · simp
        · exact ih later
      · rename_i other
        rcases List.mem_cons.1 member with rfl | later
        · have apart : '\n' ≠ c := fun same => other (beq_iff_eq.2 same.symm)
          exact List.not_mem_cons_of_ne_of_not_mem apart (ih List.mem_cons_self)
        · exact ih (List.mem_cons_of_mem _ later)

theorem feed_not_mem_endLines {pieces : List (List Char)}
    (single : ∀ piece ∈ pieces, '\n' ∉ piece) : ∀ line ∈ endLines pieces, '\n' ∉ line := by
  induction pieces using endLines.induct with
  | case1 => simp [endLines]
  | case2 last empty => simp [endLines, empty]
  | case3 last some =>
      rw [endLines, if_neg some]
      exact single
  | case4 line next rest ih =>
      obtain ⟨here, later⟩ := List.forall_mem_cons.1 single
      rw [endLines]
      refine List.forall_mem_cons.2 ⟨?_, ih later⟩
      unfold dropReturn
      split
      · exact fun inside => here (List.dropLast_subset line inside)
      · exact here

theorem Line.scan_normalized (text : List Char) : scan (normalized text) = scan text := by
  have single : ∀ row ∈ (lines text).map (fun line => trim (stripComment line)), '\n' ∉ row := by
    intro row member inside
    obtain ⟨line, listed, rfl⟩ := List.mem_map.1 member
    apply feed_not_mem_endLines (fun _ => feed_not_mem_splitOn) line listed
    exact (stripFrom_isPrefix .start line).subset ((trim_isInfix _).subset inside)
  have kept : keep 1 ((lines text).map fun line => trim (stripComment line)) = scan text :=
    keep_map ofRaw?_normalized 1 (lines text)
  by_cases none : lines text = []
  · rw [← kept, normalized, none]
    rfl
  · rw [scan_eq_keep, normalized, List.splitOn_intercalate '\n' single (by simpa using none), kept]

-- The blank behind the backslash is escaped and trimmed all the same.
example : normalized "set a\\ ; x\r\n\t; y\n end".toList = "set a\\\n\nend".toList := by decide

/-- A line of a text, with what stands above and below it. It may end with a carriage return. -/
structure Around (above line below : List Char) : Prop where
  above : above = [] ∨ ∃ front, above = front ++ ['\n']
  line : '\n' ∉ line
  below : below = [] ∨ (∃ rest, below = '\n' :: rest) ∨ ∃ rest, below = '\r' :: '\n' :: rest

/-- One line of a text is indented, or a comment is put behind it where one can start. -/
inductive Dresses : List Char → List Char → Prop
  | indent {above line below blanks : List Char} (around : Around above line below)
      (blank : ∀ c ∈ blanks, isBlank c = true) (single : '\n' ∉ blanks) :
      Dresses (above ++ line ++ below) (above ++ (blanks ++ line) ++ below)
  | comment {above line below note : List Char} (around : Around above line below)
      (free : OpenAt .start line line.length ∨ ∃ place, CommentAt .start line place)
      (single : '\n' ∉ note) :
      Dresses (above ++ line ++ below) (above ++ (line ++ ';' :: note) ++ below)

namespace Line

variable {above line below other : List Char}

theorem scan_single (single : '\n' ∉ line) : scan line = (ofRaw? line 1).toList := by
  rw [scan_eq_keep, List.splitOn_eq_singleton single, keep_cons]
  exact List.append_nil _

theorem scan_replace (around : Around above line below) (single : '\n' ∉ other)
    (same : ∀ number, ofRaw? other number = ofRaw? line number) :
    scan (above ++ other ++ below) = scan (above ++ line ++ below) := by
  have alike : scan (other ++ below) = scan (line ++ below) := by
    have counted : other.count '\n' = line.count '\n' := by
      rw [List.count_eq_zero.2 single, List.count_eq_zero.2 around.line]
    have here : scan other = scan line := by
      rw [scan_single single, scan_single around.line, same]
    rcases around.below with rfl | ⟨rest, rfl⟩ | ⟨rest, rfl⟩
    · rw [List.append_nil, List.append_nil, here]
    · rw [scan_append, scan_append, here, counted]
    · have returned : ∀ text : List Char,
          text ++ '\r' :: '\n' :: rest = text ++ ['\r'] ++ '\n' :: rest := by simp
      have ended : ∀ text : List Char, '\n' ∉ text → scan (text ++ ['\r']) = scan text := by
        intro text free
        rw [scan_single (by simpa using free), scan_single free, ofRaw?_return]
      rw [returned, returned, scan_append, scan_append, ended other single,
        ended line around.line, here, List.count_append, List.count_append, counted]
  rcases around.above with rfl | ⟨front, rfl⟩
  · exact alike
  · have joined : ∀ text : List Char,
        front ++ ['\n'] ++ text ++ below = front ++ '\n' :: (text ++ below) := by simp
    rw [joined, joined, scan_append, scan_append, alike]

theorem scan_dresses {text : List Char} (dresses : Dresses text other) :
    scan other = scan text := by
  cases dresses with
  | indent around blank single =>
      apply scan_replace around
      · simpa [single] using around.line
      · exact ofRaw?_indented blank _
  | comment around free single =>
      apply scan_replace around
      · simp [around.line, single]
      · exact ofRaw?_commented free _

end Line

/--
Stripping a line leaves the longest part of it in which no semicolon is outside quotes and behind no
escaping backslash. A text that is normalized, or in which lines are indented and comments are put
behind lines any number of times, has the same scanned lines with the same numbers, so reading it
gives the same program or error and the same warnings.
-/
theorem Program.parse_dressed (line text : List Char) :
    (stripComment line <+: line ∧
      (∀ place, ¬ CommentAt .start (stripComment line) place) ∧
      ∀ front, front <+: line → (∀ place, ¬ CommentAt .start front place) →
        front <+: stripComment line) ∧
    (Line.scan (normalized text) = Line.scan text ∧
      Program.parse (String.ofList (normalized text)) = Program.parse (String.ofList text)) ∧
    ∀ other, Relation.ReflTransGen Dresses text other →
      Line.scan other = Line.scan text ∧
        Program.parse (String.ofList other) = Program.parse (String.ofList text) := by
  have read : ∀ other, Line.scan other = Line.scan text →
      Program.parse (String.ofList other) = Program.parse (String.ofList text) := by
    intro other same
    rw [Program.parse, Program.parse, String.toList_ofList, String.toList_ofList, same]
  refine ⟨⟨?_, ?_, ?_⟩, ⟨Line.scan_normalized text, ?_⟩, ?_⟩
  · exact stripFrom_isPrefix .start line
  · exact not_commentAt_stripFrom .start line
  · intro front part bare
    exact isPrefix_stripFrom part bare
  · exact read _ (Line.scan_normalized text)
  · intro other dressed
    have same : Line.scan other = Line.scan text := by
      induction dressed with
      | refl => rfl
      | tail _ last ih => exact (Line.scan_dresses last).trans ih
    exact ⟨same, read other same⟩

end SceneScript
