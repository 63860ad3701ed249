import SceneScript.Proofs.Condition.Rendering

/-!
# Rendered conditions at the limits

A rendered condition is well formed, so the limits are all that can stop its reading. There are two
of them, on the height of the tree and on the signs around a token, and different trees reach them:
a tower of `not`s is nested twice as deep as it is high, a chain of operators is higher than it is
nested. Whichever is passed, and at whichever part of the tree, the flaw is the same one.
-/

namespace SceneScript.Condition

set_option autoImplicit false

/-- Neither limit is passed where `allowance` further signs may be opened. -/
def Within (allowance : Nat) (condition : Condition) : Prop :=
  condition.height ≤ depthLimit ∧ condition.nesting ≤ allowance

theorem taken_tokens {allowance : Nat} {condition : Condition} (within : Within allowance condition)
    (rest : List Token) :
    taken (operand allowance) (condition.tokens ++ rest) = .ok (condition, rest) := by
  rw [reads_operand]
  exact ⟨condition.tokens, rfl, fits_tokens within.1 within.2, stops_nil rest⟩

section Chains

variable {operator : Token} {join : Condition → Condition → Condition} {reader : Reader}
  {left right : Condition} {tokens others rest : List Token} {flaw : Flaw}

theorem taken_chain_error (failed : taken reader tokens = .error flaw) :
    taken (chain operator join reader) tokens = .error flaw := by
  rw [taken_chain, failed]
  rfl

theorem taken_chain_single {token : Token} (found : taken reader tokens = .ok (left, token :: rest))
    (differs : token ≠ operator) :
    taken (chain operator join reader) tokens = .ok (left, token :: rest) := by
  rw [taken_chain, found]
  exact tailTaken_other differs

theorem taken_chain_pair_error (first : taken reader tokens = .ok (left, operator :: others))
    (second : taken reader others = .error .tooDeep ∨
      taken reader others = .ok (right, rest) ∧ depthLimit < (join left right).height) :
    taken (chain operator join reader) tokens = .error .tooDeep := by
  rw [taken_chain, first]
  simp only [Except.bind]
  rw [tailTaken_operator]
  cases second with
  | inl failed => rw [failed, Except.bind]
  | inr joined =>
      rw [joined.1]
      simp only [Except.bind, checkHeight, if_neg (Nat.not_le.2 joined.2)]

end Chains

theorem taken_group_error {deeper : Nat} {tokens : List Token} {flaw : Flaw}
    (failed : taken (disjunction (operand deeper)) tokens = .error flaw) :
    taken (operand (deeper + 1)) (.opening :: tokens) = .error flaw := by
  rw [taken_group, failed]
  rfl

theorem taken_opening_zero (tokens : List Token) :
    taken (operand 0) (.opening :: tokens) = .error .tooDeep := by
  rw [taken, operand]
  rfl

-- Of two joined conditions the left one is refused, or the right one, or only their height. The
-- induction is on the condition; `rest` is what stands behind the sign that closes around it.
theorem taken_tokens_error {allowance : Nat} {condition : Condition}
    (beyond : ¬ Within allowance condition) (rest : List Token) :
    taken (operand allowance) (condition.tokens ++ rest) = .error .tooDeep := by
  induction condition generalizing allowance rest with
  | conj left right leftIh rightIh =>
      cases allowance with
      | zero => exact taken_opening_zero _
      | succ deeper =>
          have split : (conj left right).tokens ++ rest =
              .opening :: (left.tokens ++ .and :: (right.tokens ++ .closing :: rest)) := by
            simp [tokens]
          rw [split]
          apply taken_group_error
          apply taken_chain_error
          by_cases first : Within deeper left
          · apply taken_chain_pair_error (taken_tokens first _)
            by_cases second : Within deeper right
            · refine Or.inr ⟨taken_tokens second _, ?_⟩
              simp only [Within, height, nesting] at first second beyond ⊢
              omega
            · exact Or.inl (rightIh second _)
          · exact taken_chain_error (leftIh first _)
  | disj left right leftIh rightIh =>
      cases allowance with
      | zero => exact taken_opening_zero _
      | succ deeper =>
          have split : (disj left right).tokens ++ rest =
              .opening :: (left.tokens ++ .or :: (right.tokens ++ .closing :: rest)) := by
            simp [tokens]
          rw [split]
          apply taken_group_error
          by_cases first : Within deeper left
          · apply taken_chain_pair_error (taken_chain_single (taken_tokens first _) (by decide))
            by_cases second : Within deeper right
            · refine Or.inr ⟨taken_chain_single (taken_tokens second _) (by decide), ?_⟩
              simp only [Within, height, nesting] at first second beyond ⊢
              omega
            · exact Or.inl (taken_chain_error (rightIh second _))
          · exact taken_chain_error (taken_chain_error (leftIh first _))
  | neg inner ih =>
      have split : (neg inner).tokens ++ rest =
          .opening :: (.not :: (inner.tokens ++ .closing :: rest)) := by
        simp [tokens]
      rw [split]
      cases allowance with
      | zero => exact taken_opening_zero _
      | succ outer =>
          apply taken_group_error
          apply taken_chain_error
          apply taken_chain_error
          cases outer with
          | zero =>
              rw [taken, operand]
              rfl
          | succ deeper =>
              rw [taken_not]
              by_cases within : Within deeper inner
              · have high : ¬ (neg inner).height ≤ depthLimit := by
                  simp only [Within, height, nesting] at within beyond ⊢
                  omega
                rw [taken_tokens within]
                simp only [Except.bind, checkHeight, if_neg high]
                rfl
              · rw [ih within]
                rfl
  | has name => exact absurd ⟨by simp [height, depthLimit], Nat.zero_le _⟩ beyond
  | ident name => exact absurd ⟨by simp [height, depthLimit], Nat.zero_le _⟩ beyond
  | literal value => exact absurd ⟨by simp [height, depthLimit], Nat.zero_le _⟩ beyond

theorem parse_render_error {condition : Condition}
    (named : ∀ name ∈ condition.names, IsName name) (beyond : ¬ Within depthLimit condition) :
    parse condition.render.toList = .error (.malformed .tooDeep) := by
  have refused := taken_tokens_error beyond []
  rw [List.append_nil] at refused
  have whole : taken (disjunction (operand depthLimit)) condition.tokens = .error .tooDeep :=
    taken_chain_error (taken_chain_error refused)
  rw [parse_of_scan (scan_render named), whole]
  rfl

theorem message_tooDeep :
    (Fault.malformed .tooDeep).message = "无效的条件表达式 - 表达式嵌套超过 64 层" := by
  decide +kernel

/--
A rendered condition is read back exactly up to the limits. With a height of at most 64 and at most
64 signs around any of its parts it is the result; any other condition is refused as nested too
deeply, with the number of the line and the limit in the message.
-/
theorem parseAt_render (number : Nat) {condition : Condition}
    (named : ∀ name ∈ condition.names, IsName name) :
    (condition.height ≤ 64 ∧ condition.nesting ≤ 64 →
      parseAt number condition.render.toList = .ok condition) ∧
    (¬ (condition.height ≤ 64 ∧ condition.nesting ≤ 64) →
      parseAt number condition.render.toList =
        .error ⟨number, .condition (.malformed .tooDeep)⟩) ∧
    (ParseError.mk number (.condition (.malformed .tooDeep))).message =
      "第 " ++ toString number ++ " 行：" ++ "无效的条件表达式 - 表达式嵌套超过 64 层" := by
  refine ⟨?_, ?_, congrArg (atLine number) message_tooDeep⟩
  · rintro ⟨low, room⟩
    exact parseAt_eq_ok.2 (parse_render named low room)
  · intro beyond
    have refused : parse condition.render.toList = .error (.malformed .tooDeep) :=
      parse_render_error named beyond
    exact parseAt_eq_error.2 ⟨_, refused, rfl⟩

def tower (count : Nat) : Condition :=
  Nat.repeat neg count (ident "key")

/-- A name to which further names are joined, always on the right. -/
def ladder (count : Nat) : Condition :=
  Nat.repeat (conj · (ident "key")) count (ident "key")

/-- One more `not` passes the limit of nesting alone, one more operator that of height alone. -/
theorem parseAt_render_tower_ladder :
    (tower 33).height ≤ 64 ∧ (ladder 64).nesting ≤ 64 ∧
    parseAt 7 (tower 32).render.toList = .ok (tower 32) ∧
    parseAt 7 (tower 33).render.toList = .error ⟨7, .condition (.malformed .tooDeep)⟩ ∧
    parseAt 7 (ladder 63).render.toList = .ok (ladder 63) ∧
    parseAt 7 (ladder 64).render.toList = .error ⟨7, .condition (.malformed .tooDeep)⟩ := by
  refine ⟨by decide +kernel, by decide +kernel, ?_, ?_, ?_, ?_⟩
  · exact (parseAt_render 7 (by decide +kernel)).1 (by decide +kernel)
  · exact (parseAt_render 7 (by decide +kernel)).2.1 (by decide +kernel)
  · exact (parseAt_render 7 (by decide +kernel)).1 (by decide +kernel)
  · exact (parseAt_render 7 (by decide +kernel)).2.1 (by decide +kernel)

end SceneScript.Condition
