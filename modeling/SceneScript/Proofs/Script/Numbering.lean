import SceneScript.Script.Line

/-!
# The numbers of scanned lines

A line is numbered by the line feeds before it, whether or not it has anything left, and a carriage
return before a line feed makes no difference. So a scanned line can be found in the text by its
number, the numbers ascend, and the lines of two texts that are joined by a line feed are those of
the first one followed by those of the second one with their numbers moved.
-/

namespace SceneScript

open SceneScript.Text

set_option autoImplicit false

namespace Line

/-- The lines of raw lines that are numbered from `first` on. -/
def keep (first : Nat) (raws : List (List Char)) : List Line :=
  (raws.zipIdx first).filterMap fun (raw, number) => ofRaw? raw number

def shift (offset : Nat) (line : Line) : Line :=
  { line with number := line.number + offset }

theorem keep_cons (first : Nat) (raw : List Char) (rest : List (List Char)) :
    keep first (raw :: rest) = (ofRaw? raw first).toList ++ keep (first + 1) rest := by
  simp only [keep, List.zipIdx_cons, List.filterMap_cons]
  cases ofRaw? raw first <;> rfl

theorem keep_append (first : Nat) (raws others : List (List Char)) :
    keep first (raws ++ others) = keep first raws ++ keep (first + raws.length) others := by
  rw [keep, List.zipIdx_append, List.filterMap_append]
  rfl

theorem number_of_ofRaw? {raw : List Char} {number : Nat} {line : Line}
    (kept : ofRaw? raw number = some line) : line.number = number := by
  simp only [ofRaw?] at kept
  split at kept
  · cases kept
  · cases kept
    rfl

theorem ofRaw?_shift (raw : List Char) (number offset : Nat) :
    ofRaw? raw (number + offset) = (ofRaw? raw number).map (shift offset) := by
  simp only [ofRaw?]
  split <;> rfl

theorem keep_shift (first offset : Nat) (raws : List (List Char)) :
    keep (first + offset) raws = (keep first raws).map (shift offset) := by
  induction raws generalizing first with
  | nil => rfl
  | cons raw rest ih =>
      have later := ih (first + 1)
      rw [Nat.add_right_comm] at later
      rw [keep_cons, keep_cons, ofRaw?_shift, later, List.map_append]
      cases ofRaw? raw first <;> rfl

theorem mem_keep {first : Nat} {raws : List (List Char)} {line : Line} :
    line ∈ keep first raws ↔ first ≤ line.number ∧
      ∃ raw, raws[line.number - first]? = some raw ∧ ofRaw? raw line.number = some line := by
  induction raws generalizing first with
  | nil => simp [keep]
  | cons raw rest ih =>
      rw [keep_cons, List.mem_append, Option.mem_toList, ih]
      constructor
      · rintro (here | ⟨above, other, found, kept⟩)
        · have number := number_of_ofRaw? here
          refine ⟨Nat.le_of_eq number.symm, raw, ?_, ?_⟩
          · simp [number]
          · rw [number]
            exact here
        · refine ⟨by omega, other, ?_, kept⟩
          have position : line.number - first = line.number - (first + 1) + 1 := by omega
          rw [position, List.getElem?_cons_succ]
          exact found
      · rintro ⟨above, other, found, kept⟩
        by_cases here : line.number = first
        · left
          rw [here, Nat.sub_self, List.getElem?_cons_zero, Option.some.injEq] at found
          rw [found, ← here]
          exact kept
        · right
          refine ⟨by omega, other, ?_, kept⟩
          have position : line.number - first = line.number - (first + 1) + 1 := by omega
          rw [position, List.getElem?_cons_succ] at found
          exact found

theorem ascending_keep (first : Nat) (raws : List (List Char)) :
    (keep first raws).Pairwise (fun line later => line.number < later.number) := by
  induction raws generalizing first with
  | nil => exact .nil
  | cons raw rest ih =>
      rw [keep_cons]
      refine List.pairwise_append.2 ⟨?_, ih (first + 1), ?_⟩
      · cases ofRaw? raw first <;> simp
      · intro line here later member
        have number := number_of_ofRaw? (Option.mem_toList.1 here)
        have above := (mem_keep.1 member).1
        omega

end Line

-- A carriage return at the end is no start of a comment, so it is kept by stripping, if it is
-- reached at all, and then trimmed.
theorem stripFrom_concat (mode : QuoteMode) (text : List Char) {c : Char} (other : c ≠ ';') :
    stripFrom mode (text ++ [c]) = stripFrom mode text ∨
      stripFrom mode (text ++ [c]) = stripFrom mode text ++ [c] := by
  induction text generalizing mode with
  | nil => simp [stripFrom, other]
  | cons d rest ih =>
      simp only [List.cons_append, stripFrom]
      split
      · exact Or.inl rfl
      · rcases ih (mode.next d) with same | longer
        · exact Or.inl (congrArg _ same)
        · exact Or.inr (congrArg _ longer)

theorem trim_concat {c : Char} (blank : isBlank c = true) (text : List Char) :
    trim (text ++ [c]) = trim text := by
  have single : [c].dropWhile isBlank = [] := by simp [blank]
  simp only [trim, trimStart, List.dropWhile_append, single]
  split
  · rename_i allBlank
    rw [List.isEmpty_iff.1 allBlank]
  · simp [trimEnd, blank]

namespace Line

theorem ofRaw?_dropReturn (raw : List Char) (number : Nat) :
    ofRaw? (dropReturn raw) number = ofRaw? raw number := by
  unfold dropReturn
  split
  · rename_i returned
    obtain ⟨front, rfl⟩ := List.getLast?_eq_some_iff.1 returned
    have same : trim (stripComment (front ++ ['\r'])) = trim (stripComment front) := by
      unfold stripComment
      rcases stripFrom_concat .start front (show '\r' ≠ ';' by decide) with same | longer
      · rw [same]
      · rw [longer, trim_concat (by decide)]
    rw [List.dropLast_concat, ofRaw?, ofRaw?, same]
  · rfl

theorem keep_endLines (first : Nat) (pieces : List (List Char)) :
    keep first (endLines pieces) = keep first pieces := by
  induction pieces using endLines.induct generalizing first with
  | case1 => rfl
  | case2 last empty =>
      rw [endLines, if_pos empty, List.isEmpty_iff.1 empty, keep_cons]
      rfl
  | case3 last some => rw [endLines, if_neg some]
  | case4 line next rest ih =>
      rw [endLines, keep_cons, keep_cons, ofRaw?_dropReturn, ih]

theorem scan_eq_keep (text : List Char) : scan text = keep 1 (text.splitOn '\n') :=
  keep_endLines 1 _

theorem length_splitOn (text : List Char) :
    (text.splitOn '\n').length = 1 + text.count '\n' := by
  induction text with
  | nil => rfl
  | cons c rest ih =>
      rw [List.splitOn_cons_eq_if_modifyHead, List.count_cons]
      split
      · rw [List.length_cons, ih]
        omega
      · rw [List.length_modifyHead, ih]
        rfl

theorem scan_append (text other : List Char) :
    scan (text ++ '\n' :: other) =
      scan text ++ (scan other).map (shift (1 + text.count '\n')) := by
  rw [scan_eq_keep, scan_eq_keep, scan_eq_keep, List.splitOn_append_cons_self, keep_append,
    length_splitOn, keep_shift]

theorem ascending_scan (text : List Char) :
    (scan text).Pairwise (fun line later => line.number < later.number) :=
  ascending_keep 1 _

/-- The number of a scanned line is its position in the text, counted from one. -/
theorem mem_scan {text : List Char} {line : Line} :
    line ∈ scan text ↔ 1 ≤ line.number ∧
      ∃ raw, (lines text)[line.number - 1]? = some raw ∧ ofRaw? raw line.number = some line :=
  mem_keep

end Line

end SceneScript
