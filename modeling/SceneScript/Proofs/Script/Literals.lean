import Mathlib.Data.Nat.Find
import Mathlib.Order.Bounds.Defs
import SceneScript.Proofs.Script.Tidy
import SceneScript.Script.Reading

/-!
# Where a literal ends

A literal ends at the first quote that no backslash escapes, counted from its opening quote, and its
value is the text up to there with the escapes resolved. Places in a line are counted in bytes, so a
reading is said here by the characters before the place. The scan for comments follows the quotes of
a line in its own way, from the start of the line on; up to the end of the first literal both find
the same quotes, and stripping and trimming leave that literal as it is.
-/

namespace SceneScript

open SceneScript.Text

set_option autoImplicit false

namespace Text

theorem dropBytes?_append (front text : List Char) :
    dropBytes? (byteSize front) (front ++ text) = some text := by
  induction front with
  | nil => simp [byteSize, dropBytes?]
  | cons c rest ih =>
      have positive := c.utf8Size_pos
      obtain ⟨offset, size⟩ : ∃ offset, byteSize (c :: rest) = offset + 1 :=
        ⟨byteSize (c :: rest) - 1, by rw [byteSize]; omega⟩
      have inside : c.utf8Size ≤ offset + 1 := by
        rw [← size, byteSize]
        omega
      have behind : offset + 1 - c.utf8Size = byteSize rest := by
        rw [← size, byteSize]
        omega
      rw [size, List.cons_append, dropBytes?, if_pos inside, behind, ih]

namespace Quoted

/--
Whether the character at a place is behind a backslash that escapes it. A backslash that is escaped
itself escapes nothing.
-/
def isEscaped (escaped : Bool) (text : List Char) : Nat → Bool
  | 0 => escaped
  | place + 1 => text[place]? == some '\\' && !isEscaped escaped text place

/-- A quote that is not escaped. -/
def ClosesAt (escaped : Bool) (text : List Char) (place : Nat) : Prop :=
  text[place]? = some '"' ∧ isEscaped escaped text place = false

instance (escaped : Bool) (text : List Char) (place : Nat) :
    Decidable (ClosesAt escaped text place) :=
  inferInstanceAs (Decidable (_ ∧ _))

/-- What the text inside a literal stands for. -/
def decode : List Char → List Char
  | '\\' :: c :: rest => unescape c :: decode rest
  | c :: rest => c :: decode rest
  | [] => []

theorem isEscaped_cons (escaped : Bool) (c : Char) (rest : List Char) (place : Nat) :
    isEscaped escaped (c :: rest) (place + 1) =
      isEscaped (c == '\\' && !escaped) rest place := by
  induction place with
  | zero => simp [isEscaped]
  | succ place ih =>
      rw [isEscaped, ih, isEscaped, List.getElem?_cons_succ]

theorem closesAt_cons {escaped : Bool} {c : Char} {rest : List Char} {place : Nat} :
    ClosesAt escaped (c :: rest) (place + 1) ↔
      ClosesAt (c == '\\' && !escaped) rest place := by
  rw [ClosesAt, ClosesAt, isEscaped_cons, List.getElem?_cons_succ]

theorem not_closesAt_nil (escaped : Bool) (place : Nat) : ¬ ClosesAt escaped [] place := by
  rintro ⟨found, -⟩
  cases found

theorem decode_cons {c : Char} (plain : c ≠ '\\') (rest : List Char) :
    decode (c :: rest) = c :: decode rest := by
  rw [decode]
  rintro d others same
  exact absurd same plain

theorem isLeast_closesAt_cons {escaped : Bool} {c : Char} {rest : List Char} {place : Nat}
    (first : IsLeast {place | ClosesAt escaped (c :: rest) place} (place + 1)) :
    IsLeast {place | ClosesAt (c == '\\' && !escaped) rest place} place := by
  refine ⟨closesAt_cons.1 first.1, ?_⟩
  intro other closes
  have later : place + 1 ≤ other + 1 := first.2 (closesAt_cons.2 closes)
  omega

-- The induction is on the text. Behind a backslash the value is that of the text with the backslash
-- in front, so that an escape is resolved as a whole.
theorem readFrom?_of_isLeast {escaped : Bool} {text : List Char} {place : Nat}
    (first : IsLeast {place | ClosesAt escaped text place} place) :
    readFrom? escaped text =
      some (decode ((if escaped then ['\\'] else []) ++ text.take place),
        text.drop (place + 1)) := by
  induction text generalizing escaped place with
  | nil => exact absurd first.1 (not_closesAt_nil escaped place)
  | cons c rest ih =>
      cases place with
      | zero =>
          obtain ⟨quote, plain⟩ := first.1
          cases plain
          cases quote
          rfl
      | succ place =>
          have later := ih (isLeast_closesAt_cons first)
          cases escaped with
          | true =>
              simp only [Bool.not_true, Bool.and_false, Bool.false_eq_true, if_false,
                List.nil_append] at later
              rw [readFrom?, later]
              rfl
          | false =>
              have notQuote : c ≠ '"' := by
                rintro rfl
                have early : place + 1 ≤ 0 := first.2 ⟨rfl, rfl⟩
                omega
              by_cases slash : c = '\\'
              · subst slash
                rw [readFrom?, if_neg notQuote, if_pos rfl]
                simpa using later
              · simp only [beq_eq_false_iff_ne.2 slash, Bool.false_and, Bool.false_eq_true,
                  if_false, List.nil_append] at later
                rw [readFrom?, if_neg notQuote, if_neg slash, later]
                simp [decode_cons slash]

/-- A character that does not close the literal is put into the value, the rest being read alike. -/
theorem exists_readFrom?_cons {escaped : Bool} {c : Char} (inside : escaped = true ∨ c ≠ '"') :
    ∃ extend : List Char → List Char, ∀ rest, readFrom? escaped (c :: rest) =
      (readFrom? (c == '\\' && !escaped) rest).map fun found => (extend found.1, found.2) := by
  cases escaped with
  | true =>
      refine ⟨(unescape c :: ·), fun rest => ?_⟩
      rw [readFrom?, Bool.not_true, Bool.and_false]
  | false =>
      have notQuote : c ≠ '"' := by simpa using inside
      by_cases slash : c = '\\'
      · refine ⟨id, fun rest => ?_⟩
        simp [readFrom?, slash]
      · refine ⟨(c :: ·), fun rest => ?_⟩
        rw [readFrom?, if_neg notQuote, if_neg slash, beq_eq_false_iff_ne.2 slash, Bool.false_and]

theorem inside_or_closes (escaped : Bool) (c : Char) :
    (escaped = true ∨ c ≠ '"') ∨ escaped = false ∧ c = '"' := by
  cases escaped with
  | true => exact Or.inl (Or.inl rfl)
  | false =>
      by_cases quote : c = '"'
      · exact Or.inr ⟨rfl, quote⟩
      · exact Or.inl (Or.inr quote)

theorem readFrom?_eq_none {escaped : Bool} {text : List Char}
    (never : ∀ place, ¬ ClosesAt escaped text place) : readFrom? escaped text = none := by
  induction text generalizing escaped with
  | nil => rfl
  | cons c rest ih =>
      rcases inside_or_closes escaped c with inside | ⟨rfl, rfl⟩
      · obtain ⟨extend, step⟩ := exists_readFrom?_cons inside
        rw [step, ih fun place closes => never (place + 1) (closesAt_cons.2 closes)]
        rfl
      · exact absurd ⟨rfl, rfl⟩ (never 0)

theorem readAt?_append {front : List Char} {start : Nat} (before : byteSize front = start + 1)
    (text : List Char) :
    readAt? (front ++ text) start =
      (read? text).map fun found => (found.1, byteSize (front ++ text) - byteSize found.2) := by
  rw [readAt?, ← before, dropBytes?_append, Option.getD_some]

end Quoted

end Text

namespace Line

section

variable {front : List Char} {start : Nat} (number : Nat)

theorem literalAt_ok (before : byteSize front = start + 1) {inside rest value : List Char}
    (read : Quoted.read? (inside ++ rest) = some (value, rest)) :
    (Line.mk number (front ++ (inside ++ rest))).literalAt start =
      .ok (String.ofList value, byteSize (front ++ inside)) := by
  have sizes : byteSize (front ++ (inside ++ rest)) - byteSize rest =
      byteSize (front ++ inside) := by
    rw [← List.append_assoc, byteSize_append]
    omega
  simp only [literalAt, Quoted.readAt?_append before, read, Option.map_some, sizes]

theorem literalAt_error (before : byteSize front = start + 1) {text : List Char}
    (unclosed : Quoted.read? text = none) :
    (Line.mk number (front ++ text)).literalAt start = .error ⟨number, .unterminated⟩ := by
  simp only [literalAt, Quoted.readAt?_append before, unclosed]
  rfl

theorem literalAt_of_isLeast (before : byteSize front = start + 1) {text : List Char} {place : Nat}
    (first : IsLeast {place | Quoted.ClosesAt false text place} place) :
    (Line.mk number (front ++ text)).literalAt start =
      .ok (String.ofList (Quoted.decode (text.take place)),
        byteSize (front ++ text.take (place + 1))) := by
  have split := List.take_append_drop (place + 1) text
  have read : Quoted.read? (text.take (place + 1) ++ text.drop (place + 1)) =
      some (Quoted.decode (text.take place), text.drop (place + 1)) := by
    rw [split]
    exact Quoted.readFrom?_of_isLeast first
  have found := literalAt_ok number before read
  rw [split] at found
  exact found

end

theorem byteSize_quote (front : List Char) : byteSize (front ++ ['"']) = byteSize front + 1 :=
  byteSize_append front ['"']

theorem literalAt_quote (number : Nat) (front : List Char) {body rest value : List Char}
    (read : Quoted.read? (body ++ '"' :: rest) = some (value, rest)) :
    (Line.mk number (front ++ '"' :: (body ++ '"' :: rest))).literalAt (byteSize front) =
      .ok (String.ofList value, byteSize front + byteSize body + 2) := by
  have split : body ++ '"' :: rest = body ++ ['"'] ++ rest := by simp
  have whole : front ++ '"' :: (body ++ '"' :: rest) =
      front ++ ['"'] ++ (body ++ ['"'] ++ rest) := by simp
  have size : byteSize (front ++ ['"'] ++ (body ++ ['"'])) =
      byteSize front + byteSize body + 2 := by
    rw [byteSize_append, byteSize_quote, byteSize_quote]
    omega
  rw [split] at read
  rw [whole, literalAt_ok number (byteSize_quote front) read, size]

theorem literalAt_quote_error (number : Nat) (front : List Char) {inside : List Char}
    (unclosed : Quoted.read? inside = none) :
    (Line.mk number (front ++ '"' :: inside)).literalAt (byteSize front) =
      .error ⟨number, .unterminated⟩ := by
  have whole : front ++ '"' :: inside = front ++ ['"'] ++ inside := by simp
  rw [whole]
  exact literalAt_error number (byteSize_quote front) unclosed

theorem literalAt_write (number : Nat) (value front rest : List Char) :
    (Line.mk number (front ++ Quoted.write value ++ rest)).literalAt (byteSize front) =
      .ok (String.ofList value, byteSize front + byteSize (Quoted.escape value) + 2) := by
  have whole : front ++ Quoted.write value ++ rest =
      front ++ '"' :: (Quoted.escape value ++ '"' :: rest) := by
    simp [Quoted.write]
  rw [whole]
  exact literalAt_quote number front (Quoted.read?_escape value rest)

/--
Reading the literal at a byte offset, the text behind the offset being `text`. It succeeds exactly
if `text` has a quote that is not escaped. The first such quote ends the literal: the value is what
the text before it stands for, and the offset given is the one just behind it, which lies in the
line between two characters. Otherwise the literal is not closed, and the error has the number of
the line. In particular a value that was written is read back, whatever stands around it.
-/
theorem literalAt_first_quote (number start : Nat) (front text : List Char)
    (before : byteSize front = start + 1) :
    let line : Line := ⟨number, front ++ text⟩
    ((∃ found, line.literalAt start = .ok found) ↔ ∃ place, Quoted.ClosesAt false text place) ∧
    (∀ place, IsLeast {place | Quoted.ClosesAt false text place} place →
      ∃ stop, line.literalAt start = .ok (String.ofList (Quoted.decode (text.take place)), stop) ∧
        stop = byteSize (front ++ text.take (place + 1)) ∧ stop ≤ byteSize line.text ∧
        dropBytes? stop line.text = some (text.drop (place + 1))) ∧
    ((∀ place, ¬ Quoted.ClosesAt false text place) →
      line.literalAt start = .error ⟨number, .unterminated⟩) ∧
    ∀ value ahead behind,
      (Line.mk number (ahead ++ Quoted.write value ++ behind)).literalAt (byteSize ahead) =
        .ok (String.ofList value, byteSize ahead + byteSize (Quoted.escape value) + 2) := by
  intro line
  have refused : (∀ place, ¬ Quoted.ClosesAt false text place) →
      line.literalAt start = .error ⟨number, .unterminated⟩ := by
    intro never
    exact literalAt_error number before (Quoted.readFrom?_eq_none never)
  refine ⟨⟨?_, ?_⟩, ?_, refused, ?_⟩
  · rintro ⟨found, read⟩
    refine Classical.byContradiction fun never => ?_
    rw [refused (not_exists.1 never)] at read
    cases read
  · intro closed
    have first : IsLeast {place | Quoted.ClosesAt false text place} (Nat.find closed) :=
      ⟨Nat.find_spec closed, fun other closes => Nat.find_min' closed closes⟩
    exact ⟨_, literalAt_of_isLeast number before first⟩
  · intro place first
    have whole : line.text = front ++ text.take (place + 1) ++ text.drop (place + 1) := by
      rw [List.append_assoc, List.take_append_drop]
    refine ⟨_, literalAt_of_isLeast number before first, rfl, ?_, ?_⟩
    · rw [whole, byteSize_append _ (text.drop (place + 1))]
      omega
    · rw [whole]
      exact dropBytes?_append _ _
  · intro value ahead behind
    exact literalAt_write number value ahead behind

/-- A literal with an escaped quote in it and an escaped backslash at its end. -/
theorem literalAt_first_quote_wall :
    byteSize "say \"".toList = 4 + 1 ∧
    (Line.mk 3 "say \"墙\\\"\\\\\" ;".toList).literalAt 4 = .ok ("墙\"\\", 13) := by
  have before : byteSize "say \"".toList = 4 + 1 := by decide
  have closed : Quoted.ClosesAt false "墙\\\"\\\\\" ;".toList 5 := by decide
  have none : ∀ place < 5, ¬ Quoted.ClosesAt false "墙\\\"\\\\\" ;".toList place := by decide
  have first : IsLeast {place | Quoted.ClosesAt false "墙\\\"\\\\\" ;".toList place} 5 :=
    ⟨closed, fun place closes => Nat.not_lt.1 fun early => none place early closes⟩
  obtain ⟨stop, found, rfl, -⟩ := (literalAt_first_quote 3 4 _ _ before).2.1 5 first
  exact ⟨before, found⟩

end Line

namespace Text

theorem trimStart_append {c : Char} (solid : isBlank c = false) (front rest : List Char) :
    trimStart (front ++ c :: rest) = trimStart front ++ c :: rest := by
  simp only [trimStart, List.dropWhile_append]
  split
  · rename_i allBlank
    rw [List.isEmpty_iff.1 allBlank, List.dropWhile_cons_of_neg (by simp [solid]), List.nil_append]
  · rfl

theorem takeWhile_blank {c : Char} (solid : isBlank c = false) (front rest : List Char) :
    (front ++ c :: rest).takeWhile isBlank = front.takeWhile isBlank := by
  simp only [List.takeWhile_append]
  split
  · rename_i allBlank
    rw [List.takeWhile_cons_of_neg (by simp [solid]), List.append_nil]
    exact ((List.takeWhile_prefix isBlank).eq_of_length allBlank).symm
  · rfl

theorem trimEnd_append {c : Char} (solid : isBlank c = false) (front rest : List Char) :
    trimEnd (front ++ c :: rest) = front ++ c :: trimEnd rest := by
  have turned := trimStart_append solid rest.reverse front.reverse
  simp only [trimStart] at turned
  simp [trimEnd, turned]

theorem trimEnd_isPrefix (text : List Char) : trimEnd text <+: text := by
  rw [← List.reverse_suffix, trimEnd, List.reverse_reverse]
  exact List.dropWhile_suffix isBlank

def quoteOffset (text : List Char) : Nat :=
  byteSize (text.takeWhile (· ≠ '"'))

theorem takeWhile_quote {front : List Char} (free : '"' ∉ front) (rest : List Char) :
    (front ++ '"' :: rest).takeWhile (· ≠ '"') = front := by
  have all : ∀ c ∈ front, (c ≠ '"' : Bool) = true := by
    intro c member
    refine decide_eq_true ?_
    rintro rfl
    exact free member
  rw [List.takeWhile_append_of_pos all]
  simp

theorem dropWhile_quote {front : List Char} (free : '"' ∉ front) (rest : List Char) :
    (front ++ '"' :: rest).dropWhile (· ≠ '"') = '"' :: rest := by
  have whole := List.takeWhile_append_dropWhile (p := (· ≠ '"')) (l := front ++ '"' :: rest)
  rw [takeWhile_quote free] at whole
  exact List.append_cancel_left whole

theorem quoteOffset_append {front : List Char} (free : '"' ∉ front) (rest : List Char) :
    quoteOffset (front ++ '"' :: rest) = byteSize front := by
  rw [quoteOffset, takeWhile_quote free]

namespace Quoted

theorem stripFrom_cons {escaped : Bool} {c : Char} (inside : escaped = true ∨ c ≠ '"')
    (rest : List Char) :
    stripFrom ⟨true, escaped⟩ (c :: rest) =
      c :: stripFrom ⟨true, c == '\\' && !escaped⟩ rest := by
  have moved : QuoteMode.next ⟨true, escaped⟩ c = ⟨true, c == '\\' && !escaped⟩ := by
    cases escaped with
    | true => simp [QuoteMode.next]
    | false =>
        have notQuote : c ≠ '"' := by simpa using inside
        by_cases slash : c = '\\' <;> simp [QuoteMode.next, notQuote, slash]
  rw [stripFrom, moved]
  simp [QuoteMode.isOpen]

/--
A literal that is closed: the scan for comments passes over it whole and is outside quotes behind
it, and reading does not look behind the closing quote.
-/
theorem stripFrom_of_read {escaped : Bool} {text value rest : List Char}
    (read : readFrom? escaped text = some (value, rest)) :
    ∃ body, text = body ++ '"' :: rest ∧
      stripFrom ⟨true, escaped⟩ text = body ++ '"' :: stripFrom .start rest ∧
      ∀ others, readFrom? escaped (body ++ '"' :: others) = some (value, others) := by
  induction text generalizing escaped value with
  | nil => cases read
  | cons c text ih =>
      rcases inside_or_closes escaped c with inside | ⟨rfl, rfl⟩
      · obtain ⟨extend, step⟩ := exists_readFrom?_cons inside
        rw [step] at read
        obtain ⟨⟨found, behind⟩, later, same⟩ := Option.map_eq_some_iff.1 read
        cases same
        obtain ⟨body, rfl, stripped, elsewhere⟩ := ih later
        refine ⟨c :: body, rfl, ?_, ?_⟩
        · rw [stripFrom_cons inside, stripped, List.cons_append]
        · intro others
          rw [List.cons_append, step, elsewhere]
          rfl
      · cases read
        exact ⟨[], rfl, rfl, fun others => rfl⟩

/-- A literal that is not closed: there is no comment in it, and no front of it is closed. -/
theorem stripFrom_of_unclosed {escaped : Bool} {text : List Char}
    (unclosed : readFrom? escaped text = none) :
    stripFrom ⟨true, escaped⟩ text = text ∧
      ∀ front, front <+: text → readFrom? escaped front = none := by
  induction text generalizing escaped with
  | nil =>
      refine ⟨rfl, fun front fits => ?_⟩
      rw [List.prefix_nil.1 fits]
      rfl
  | cons c text ih =>
      rcases inside_or_closes escaped c with inside | ⟨rfl, rfl⟩
      · obtain ⟨extend, step⟩ := exists_readFrom?_cons inside
        rw [step, Option.map_eq_none_iff] at unclosed
        obtain ⟨kept, fronts⟩ := ih unclosed
        refine ⟨by rw [stripFrom_cons inside, kept], fun front fits => ?_⟩
        rcases List.prefix_cons_iff.1 fits with rfl | ⟨rest, rfl, later⟩
        · rfl
        · rw [step, fronts rest later]
          rfl
      · cases unclosed

end Quoted

end Text

namespace Line

/-- The quoted argument of a line is the literal at its first quote. -/
theorem quotedArgument_append (number : Nat) {front : List Char} (free : '"' ∉ front)
    (inside : List Char) (keyword : Keyword) :
    (Line.mk number (front ++ '"' :: inside)).quotedArgument keyword =
      ((Line.mk number (front ++ '"' :: inside)).literalAt (byteSize front)).map Prod.fst := by
  simp only [quotedArgument, dropWhile_quote free]
  cases read : Quoted.read? inside with
  | none =>
      rw [literalAt_quote_error number front read]
      rfl
  | some found =>
      obtain ⟨value, rest⟩ := found
      obtain ⟨body, rfl, -⟩ := Quoted.stripFrom_of_read read
      rw [literalAt_quote number front read]
      rfl

theorem stripComment_quote {lead : List Char}
    (bare : ∀ c ∈ lead, c ≠ ';' ∧ c ≠ '"' ∧ c ≠ '\\') (inside : List Char) :
    stripComment (lead ++ '"' :: inside) = lead ++ '"' :: stripFrom ⟨true, false⟩ inside := by
  rw [stripComment, QuoteMode.start, stripFrom_bare bare]
  rfl

/--
What stripping and trimming leave behind an opening quote is read like the text itself, whatever
stands before the quote in the one line and in the other.
-/
theorem literalAt_stripped (number : Nat) (front lead inside : List Char) :
    let line : Line := ⟨number, front ++ '"' :: trimEnd (stripFrom ⟨true, false⟩ inside)⟩
    let source : Line := ⟨number, lead ++ '"' :: inside⟩
    (∃ value size, line.literalAt (byteSize front) = .ok (value, byteSize front + size) ∧
      source.literalAt (byteSize lead) = .ok (value, byteSize lead + size)) ∨
    line.literalAt (byteSize front) = .error ⟨number, .unterminated⟩ ∧
      source.literalAt (byteSize lead) = .error ⟨number, .unterminated⟩ := by
  intro line source
  cases read : Quoted.read? inside with
  | some found =>
      obtain ⟨value, rest⟩ := found
      obtain ⟨body, rfl, kept, elsewhere⟩ := Quoted.stripFrom_of_read read
      have closing : line =
          ⟨number, front ++ '"' :: (body ++ '"' :: trimEnd (stripFrom .start rest))⟩ := by
        rw [← trimEnd_append (by decide), ← kept]
      rw [closing]
      exact Or.inl ⟨_, byteSize body + 2, literalAt_quote number front (elsewhere _),
        literalAt_quote number lead read⟩
  | none =>
      obtain ⟨kept, fronts⟩ := Quoted.stripFrom_of_unclosed read
      have unclosed : Quoted.read? (trimEnd (stripFrom ⟨true, false⟩ inside)) = none := by
        rw [kept]
        exact fronts _ (trimEnd_isPrefix inside)
      exact Or.inr ⟨literalAt_quote_error number front unclosed,
        literalAt_quote_error number lead read⟩

/--
The scan for comments and the reading of literals agree on where a literal ends. If a raw line has a
quote, and no semicolon or backslash before the first one, its first literal is that of the line
that is left without comment and outer blanks: both are closed and have the same value, and their
ends differ by the blanks that were dropped in front, or neither is closed. So this literal is the
quoted argument that the line is read with.
-/
theorem literalAt_ofRaw (raw : List Char) (number : Nat) (quoted : '"' ∈ raw)
    (bare : ∀ c ∈ raw.takeWhile (· ≠ '"'), c ≠ ';' ∧ c ≠ '\\') :
    let source : Line := ⟨number, raw⟩
    let line : Line := ⟨number, trim (stripComment raw)⟩
    let indent := byteSize ((stripComment raw).takeWhile isBlank)
    ofRaw? raw number = some line ∧ '"' ∈ line.text ∧
    ((∃ value stop, line.literalAt (quoteOffset line.text) = .ok (value, stop) ∧
        source.literalAt (quoteOffset raw) = .ok (value, indent + stop)) ∨
      line.literalAt (quoteOffset line.text) = .error ⟨number, .unterminated⟩ ∧
        source.literalAt (quoteOffset raw) = .error ⟨number, .unterminated⟩) ∧
    ∀ keyword, line.quotedArgument keyword =
      (source.literalAt (quoteOffset raw)).map Prod.fst := by
  obtain ⟨lead, inside, rfl, free⟩ := List.eq_append_cons_of_mem quoted
  rw [takeWhile_quote free] at bare
  have plain : ∀ c ∈ lead, c ≠ ';' ∧ c ≠ '"' ∧ c ≠ '\\' := by
    intro c member
    refine ⟨(bare c member).1, ?_, (bare c member).2⟩
    rintro rfl
    exact free member
  have solid : isBlank '"' = false := by decide
  have lineFree : '"' ∉ trimStart lead := fun member =>
    free ((List.dropWhile_sublist isBlank).subset member)
  have stripped := stripComment_quote plain inside
  have trimmed : trim (stripComment (lead ++ '"' :: inside)) =
      trimStart lead ++ '"' :: trimEnd (stripFrom ⟨true, false⟩ inside) := by
    rw [stripped, trim, trimStart_append solid, trimEnd_append solid]
  have dropped : byteSize ((stripComment (lead ++ '"' :: inside)).takeWhile isBlank) +
      byteSize (trimStart lead) = byteSize lead := by
    rw [stripped, takeWhile_blank solid, ← byteSize_append, trimStart,
      List.takeWhile_append_dropWhile]
  simp only [ofRaw?, trimmed, quoteOffset_append lineFree, quoteOffset_append free,
    quotedArgument_append number lineFree]
  refine ⟨by simp, by simp, ?_⟩
  rcases literalAt_stripped number (trimStart lead) lead inside with
    ⟨value, size, found, same⟩ | ⟨unclosed, also⟩
  · refine ⟨Or.inl ⟨value, _, found, ?_⟩, fun keyword => ?_⟩
    · rw [same, ← Nat.add_assoc, dropped]
    · rw [found, same]
      rfl
  · exact ⟨Or.inr ⟨unclosed, also⟩, fun keyword => by rw [unclosed, also]⟩

/-- An indented line with a semicolon, a quote and a backslash in its literal, and a comment. -/
def indentedPrint : List Char :=
  "　 print \"a;\\\"b\\\\\" ; \"c".toList

theorem literalAt_ofRaw_indentedPrint :
    '"' ∈ indentedPrint ∧
    (∀ c ∈ indentedPrint.takeWhile (· ≠ '"'), c ≠ ';' ∧ c ≠ '\\') ∧
    ofRaw? indentedPrint 1 = some ⟨1, "print \"a;\\\"b\\\\\"".toList⟩ ∧
    (Line.mk 1 indentedPrint).literalAt 10 = .ok ("a;\"b\\", 19) ∧
    (Line.mk 1 "print \"a;\\\"b\\\\\"".toList).quotedArgument .print = .ok "a;\"b\\" := by
  have quoted : '"' ∈ indentedPrint := by decide
  have lead : indentedPrint.takeWhile (· ≠ '"') = ['　', ' ', 'p', 'r', 'i', 'n', 't', ' '] := by
    decide
  have bare : ∀ c ∈ indentedPrint.takeWhile (· ≠ '"'), c ≠ ';' ∧ c ≠ '\\' := by
    rw [lead]
    simp
  have found : (Line.mk 1 indentedPrint).literalAt 10 = .ok ("a;\"b\\", 19) := by
    decide +kernel
  have trimmed : trim (stripComment indentedPrint) = "print \"a;\\\"b\\\\\"".toList := by
    decide +kernel
  obtain ⟨kept, -, -, argument⟩ := literalAt_ofRaw indentedPrint 1 quoted bare
  rw [trimmed] at kept argument
  refine ⟨quoted, bare, kept, found, (argument .print).trans ?_⟩
  rw [show quoteOffset indentedPrint = 10 by decide +kernel, found]
  rfl

end Line

end SceneScript
