import SceneScript.Proofs.Condition.Grammar
import SceneScript.Proofs.Condition.Scanning
import SceneScript.Script.Reading

/-!
# What reading a condition accepts

The tokens of a text decide how reading it ends: they are a phrase of the grammar within the limits,
or a front of them is and something else than an operator stands behind it, or neither.
-/

namespace SceneScript.Condition

set_option autoImplicit false

/-- A front of the tokens is a condition within the limits, and `rest` cannot go on with it. -/
def Overrun (tokens rest : List Token) : Prop :=
  ∃ front condition next, tokens = front ++ rest ∧ Fits .disjunction depthLimit front condition ∧
    rest.head? = some next ∧ next ≠ .and ∧ next ≠ .or

section Whole

variable {tokens rest : List Token} {condition : Condition}

theorem reads_whole :
    Reads (disjunction (operand depthLimit)) (Fits .disjunction depthLimit) [.or, .and] :=
  reads_disjunction (reads_operand depthLimit)

theorem fits_iff_taken :
    Fits .disjunction depthLimit tokens condition ↔
      taken (disjunction (operand depthLimit)) tokens = .ok (condition, []) := by
  rw [reads_whole]
  constructor
  · intro fits
    exact ⟨tokens, by simp, fits, by simp [Stops]⟩
  · rintro ⟨front, rfl, fits, -⟩
    simpa using fits

theorem overrun_iff_taken :
    Overrun tokens rest ↔
      ∃ condition, taken (disjunction (operand depthLimit)) tokens = .ok (condition, rest) ∧
        rest ≠ [] := by
  constructor
  · rintro ⟨front, condition, next, split, fits, first, notAnd, notOr⟩
    refine ⟨condition, (reads_whole _ _ _).2 ⟨front, split, fits, ?_⟩, ?_⟩
    · intro token member
      rw [first] at member
      cases member
      simp [notAnd, notOr]
    · rintro rfl
      cases first
  · rintro ⟨condition, found, some⟩
    obtain ⟨front, split, fits, stops⟩ := (reads_whole _ _ _).1 found
    obtain ⟨next, others, rfl⟩ := List.exists_cons_of_ne_nil some
    have outside := stops next rfl
    simp only [List.mem_cons, List.not_mem_nil, or_false, not_or] at outside
    exact ⟨front, condition, next, split, fits, rfl, outside.2, outside.1⟩

end Whole

def conclude : Except Flaw (Condition × List Token) → Except Fault Condition
  | .error flaw => .error (.malformed flaw)
  | .ok (condition, []) => .ok condition
  | .ok (_, next :: others) => .error (.trailing (next :: others))

theorem parse_of_scan {text : List Char} {tokens : List Token}
    (scanned : Token.scan text = .ok tokens) :
    parse text = conclude (taken (disjunction (operand depthLimit)) tokens) := by
  simp only [parse, scanned, taken]
  cases disjunction (operand depthLimit) tokens with
  | error flaw => rfl
  | ok parsed =>
      obtain ⟨condition, rest, shorter⟩ := parsed
      cases rest <;> rfl

theorem conclude_taken (tokens : List Token) :
    (∀ condition, conclude (taken (disjunction (operand depthLimit)) tokens) = .ok condition ↔
      Fits .disjunction depthLimit tokens condition) ∧
    (∀ rest, conclude (taken (disjunction (operand depthLimit)) tokens) = .error (.trailing rest) ↔
      Overrun tokens rest) ∧
    ((∃ flaw, conclude (taken (disjunction (operand depthLimit)) tokens) =
        .error (.malformed flaw)) ↔
      (∀ condition, ¬ Fits .disjunction depthLimit tokens condition) ∧
        ∀ rest, ¬ Overrun tokens rest) := by
  simp only [fits_iff_taken, overrun_iff_taken]
  rcases taken (disjunction (operand depthLimit)) tokens with flaw | ⟨condition, rest⟩
  · simp [conclude]
  · cases rest with
    | nil => simp [conclude]
    | cons next others => simp [conclude]

theorem parseAt_eq_ok {number : Nat} {text : List Char} {condition : Condition} :
    parseAt number text = .ok condition ↔ parse text = .ok condition := by
  unfold parseAt
  cases parse text with
  | ok found =>
      constructor
      · intro same
        cases same
        rfl
      · intro same
        cases same
        rfl
  | error fault =>
      constructor
      · intro same
        cases same
      · intro same
        cases same

theorem parseAt_eq_error {number : Nat} {text : List Char} {error : ParseError} :
    parseAt number text = .error error ↔
      ∃ fault, parse text = .error fault ∧ error = ⟨number, .condition fault⟩ := by
  unfold parseAt
  cases parse text with
  | ok found =>
      constructor
      · intro same
        cases same
      · rintro ⟨_, same, -⟩
        cases same
  | error fault =>
      constructor
      · intro same
        cases same
        exact ⟨fault, rfl, rfl⟩
      · rintro ⟨_, same, rfl⟩
        cases same
        rfl

/--
Reading a condition in a line. A character that no token has ends it, and the first one is named.
Otherwise the tokens decide: they are a condition within the limits and it is the result, or a front
of them is one and the rest behind it is what trails, or the structure is at fault. Every error
carries the number of the line, and the message about trailing tokens spells them out with single
spaces between them.
-/
theorem parseAt_iff_grammar (number : Nat) (text : List Char) :
    (∀ bad, text.find? (fun c => !Token.isTokenChar c) = some bad →
      parseAt number text = .error ⟨number, .condition (.badCharacter bad)⟩) ∧
    (text.find? (fun c => !Token.isTokenChar c) = none →
      ∃ tokens, Token.scan text = .ok tokens ∧
        (∀ condition, parseAt number text = .ok condition ↔
          Fits .disjunction depthLimit tokens condition) ∧
        (∀ rest, parseAt number text = .error ⟨number, .condition (.trailing rest)⟩ ↔
          Overrun tokens rest) ∧
        ((∃ flaw, parseAt number text = .error ⟨number, .condition (.malformed flaw)⟩) ↔
          (∀ condition, ¬ Fits .disjunction depthLimit tokens condition) ∧
            ∀ rest, ¬ Overrun tokens rest)) ∧
    (∀ error, parseAt number text = .error error → error.line = number) ∧
    (∀ rest, (ParseError.mk number (.condition (.trailing rest))).message =
      "第 " ++ toString number ++ " 行：" ++ ("条件表达式末尾存在多余内容: '" ++
        " ".intercalate (rest.map Token.text) ++ "'")) := by
  refine ⟨?_, ?_, ?_, fun rest => rfl⟩
  · intro bad first
    refine parseAt_eq_error.2 ⟨.badCharacter bad, ?_, rfl⟩
    rw [parse, Token.scan_error first]
  · intro clean
    obtain ⟨tokens, scanned⟩ := Token.scan_ok clean
    obtain ⟨accepted, trailing, malformed⟩ := conclude_taken tokens
    rw [← parse_of_scan scanned] at accepted trailing malformed
    refine ⟨tokens, scanned, ?_, ?_, ?_⟩
    · intro condition
      rw [parseAt_eq_ok, accepted]
    · intro rest
      rw [parseAt_eq_error, ← trailing]
      simp
    · rw [← malformed]
      simp [parseAt_eq_error]
  · intro error failed
    obtain ⟨fault, -, rfl⟩ := parseAt_eq_error.1 failed
    rfl

end SceneScript.Condition
