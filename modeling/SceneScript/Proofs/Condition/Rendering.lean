import SceneScript.Proofs.Condition.Acceptance

/-!
# Reading what rendering wrote

A rendered condition has parentheses around every operator, so its tokens derive the condition in
one way. Within the limits it is read back, and none of its words is mistaken for the `then` of a
line that holds it.
-/

namespace SceneScript.Condition

open SceneScript.Text

set_option autoImplicit false

def reserved : List String :=
  ["and", "or", "not", "has", "true", "false"]

/-- A word that stands for itself. -/
structure IsName (name : String) : Prop where
  some : name.toList ≠ []
  solid : ∀ c ∈ name.toList, isWordChar c = true
  free : ∀ keyword ∈ reserved, sameWord name.toList keyword.toList = false

instance (name : String) : Decidable (IsName name) :=
  decidable_of_iff (name.toList ≠ [] ∧ name.toList.all isWordChar = true ∧
    ∀ keyword ∈ reserved, sameWord name.toList keyword.toList = false)
    ⟨fun all => ⟨all.1, List.all_eq_true.1 all.2.1, all.2.2⟩,
      fun named => ⟨named.some, List.all_eq_true.2 named.solid, named.free⟩⟩

def names : Condition → List String
  | conj left right => left.names ++ right.names
  | disj left right => left.names ++ right.names
  | neg inner => inner.names
  | has name => [name]
  | ident name => [name]
  | literal _ => []

/-- How many parentheses and `not`s lie around the innermost part of the rendered condition. -/
def nesting : Condition → Nat
  | conj left right => 1 + max left.nesting right.nesting
  | disj left right => 1 + max left.nesting right.nesting
  | neg inner => 2 + inner.nesting
  | _ => 0

def tokens : Condition → List Token
  | conj left right => .opening :: (left.tokens ++ .and :: right.tokens) ++ [.closing]
  | disj left right => .opening :: (left.tokens ++ .or :: right.tokens) ++ [.closing]
  | neg inner => .opening :: (.not :: inner.tokens) ++ [.closing]
  | has name => [.has, .ident name]
  | ident name => [.ident name]
  | literal value => [.literal value]

theorem toList_render_conj (left right : Condition) :
    (conj left right).render.toList = '(' :: (left.render.toList ++ ' ' :: ("and".toList ++
      ' ' :: (right.render.toList ++ [')']))) := by
  simp [render]

theorem toList_render_disj (left right : Condition) :
    (disj left right).render.toList = '(' :: (left.render.toList ++ ' ' :: ("or".toList ++
      ' ' :: (right.render.toList ++ [')']))) := by
  simp [render]

theorem toList_render_neg (inner : Condition) :
    (neg inner).render.toList = '(' :: ("not".toList ++ ' ' :: (inner.render.toList ++ [')'])) := by
  simp [render]

theorem toList_render_has (name : String) :
    (has name).render.toList = "has".toList ++ ' ' :: name.toList := by
  simp [render]

theorem ofWord_name {name : String} (named : IsName name) :
    Token.ofWord name.toList = .ident name := by
  have missing : Token.keywords.lookup (lower name.toList) = none := by
    apply List.lookup_eq_none_iff.2
    intro entry member
    have lowered : entry.1 = lower entry.1 ∧
        ∃ keyword ∈ ["and", "or", "not", "has", "true", "false"], entry.1 = keyword.toList := by
      revert entry
      decide
    obtain ⟨same, keyword, listed, spelled⟩ := lowered
    have differs := named.free keyword listed
    rw [sameWord, ← spelled, ← same] at differs
    rw [bne, differs]
    rfl
  rw [Token.ofWord, missing]
  simp

theorem scan_name {name : String} (named : IsName name) :
    Token.scan name.toList = .ok [.ident name] := by
  rw [Token.scan_word named.solid named.some, ofWord_name named]

theorem scan_between {c : Char} {mark before behind : List Token} {left right : List Char}
    (ends : Token.mark? c = some mark) (first : Token.scan left = .ok before)
    (second : Token.scan right = .ok behind) :
    Token.scan (left ++ c :: right) = .ok (before ++ mark ++ behind) := by
  rw [Token.scan_append_mark ends, first, second]
  rfl

theorem scan_group {left : List Char} {inner : List Token} (scanned : Token.scan left = .ok inner) :
    Token.scan ('(' :: (left ++ [')'])) = .ok (.opening :: inner ++ [.closing]) := by
  have close : Token.mark? ')' = some [.closing] := by decide
  have start : Token.mark? '(' = some [.opening] := by decide
  have closed := scan_between close scanned Token.scan_nil
  have opened := scan_between start Token.scan_nil closed
  simpa using opened

theorem scan_operator {left right word : List Char} {before behind : List Token} {operator : Token}
    (first : Token.scan left = .ok before) (middle : Token.scan word = .ok [operator])
    (second : Token.scan right = .ok behind) :
    Token.scan ('(' :: (left ++ ' ' :: (word ++ ' ' :: (right ++ [')'])))) =
      .ok (.opening :: (before ++ operator :: behind) ++ [.closing]) := by
  have blank : Token.mark? ' ' = some [] := by decide
  have inner := scan_group (scan_between blank first (scan_between blank middle second))
  simpa using inner

theorem scan_render {condition : Condition} (named : ∀ name ∈ condition.names, IsName name) :
    Token.scan condition.render.toList = .ok condition.tokens := by
  have blank : Token.mark? ' ' = some [] := by decide
  induction condition with
  | conj left right leftIh rightIh =>
      simp only [names, List.mem_append, or_imp, forall_and] at named
      rw [toList_render_conj]
      exact scan_operator (leftIh named.1) (by rfl) (rightIh named.2)
  | disj left right leftIh rightIh =>
      simp only [names, List.mem_append, or_imp, forall_and] at named
      rw [toList_render_disj]
      exact scan_operator (leftIh named.1) (by rfl) (rightIh named.2)
  | neg inner ih =>
      have signed : Token.scan "not".toList = .ok [.not] := by rfl
      have scanned := scan_group (scan_between blank signed (ih named))
      rw [toList_render_neg, tokens]
      simpa using scanned
  | has name =>
      have word : Token.scan "has".toList = .ok [.has] := by rfl
      rw [toList_render_has]
      exact scan_between blank word (scan_name (named name (by simp [names])))
  | ident name => exact scan_name (named name (by simp [names]))
  | literal value => cases value <;> rfl

theorem fits_disjunction_of_negation {allowance : Nat} {phrase : List Token} {condition : Condition}
    (fits : Fits .negation allowance phrase condition) :
    Fits .disjunction allowance phrase condition :=
  fits_disjunction_iff.2 (.one (fits_conjunction_iff.2 (.one fits)))

theorem fits_tokens {condition : Condition} (low : condition.height ≤ depthLimit) {allowance : Nat}
    (room : condition.nesting ≤ allowance) :
    Fits .negation allowance condition.tokens condition := by
  induction condition generalizing allowance with
  | conj left right leftIh rightIh =>
      simp only [height, nesting] at low room
      obtain ⟨inside, rfl⟩ : ∃ inside, allowance = inside + 1 := ⟨allowance - 1, by omega⟩
      have first : Fits .negation inside left.tokens left := leftIh (by omega) (by omega)
      have second : Fits .negation inside right.tokens right := rightIh (by omega) (by omega)
      have joined :
          Fits .conjunction inside (left.tokens ++ .and :: right.tokens) (conj left right) :=
        fits_conjunction_iff.2 (.more (.one first) second low)
      exact fits_group (fits_disjunction_iff.2 (.one joined))
  | disj left right leftIh rightIh =>
      simp only [height, nesting] at low room
      obtain ⟨inside, rfl⟩ : ∃ inside, allowance = inside + 1 := ⟨allowance - 1, by omega⟩
      have first : Fits .negation inside left.tokens left := leftIh (by omega) (by omega)
      have second : Fits .negation inside right.tokens right := rightIh (by omega) (by omega)
      have joined :
          Fits .disjunction inside (left.tokens ++ .or :: right.tokens) (disj left right) :=
        fits_disjunction_iff.2 (.more (.one (fits_conjunction_iff.2 (.one first)))
          (fits_conjunction_iff.2 (.one second)) low)
      exact fits_group joined
  | neg inner ih =>
      simp only [nesting] at room
      have lower : inner.height ≤ depthLimit := by
        simp only [height] at low
        omega
      obtain ⟨inside, rfl⟩ : ∃ inside, allowance = inside + 2 := ⟨allowance - 2, by omega⟩
      have negated : Fits .negation (inside + 1) (.not :: inner.tokens) (neg inner) :=
        fits_not (ih lower (by omega)) low
      exact fits_group (fits_disjunction_of_negation negated)
  | has name => exact ⟨_, .atom (.has name), low, by simp⟩
  | ident name => exact ⟨_, .atom (.name name), low, by simp⟩
  | literal value => exact ⟨_, .atom (.literal value), low, by simp⟩

theorem parse_render {condition : Condition} (named : ∀ name ∈ condition.names, IsName name)
    (low : condition.height ≤ depthLimit) (room : condition.nesting ≤ depthLimit) :
    parse condition.render.toList = .ok condition := by
  rw [parse_of_scan (scan_render named), (conclude_taken condition.tokens).1]
  exact fits_disjunction_of_negation (fits_tokens low room)

def Signs (text : List Char) : Prop :=
  ∀ c ∈ text, isBlank c = false ∧ isWordChar c = false

/-- None of the words of the text is `then`, whatever signs stand around it. -/
def Quiet (text : List Char) : Prop :=
  ∀ left right : List Char, Signs left → Signs right →
    ∀ word ∈ words (left ++ text ++ right), Line.isThen word = false

theorem quiet_run {run : List Char} (solid : ∀ c ∈ run, isWordChar c = true) (some : run ≠ [])
    (other : Line.isThen run = false) : Quiet run := by
  intro left right opens closes word member
  have whole : words (left ++ run ++ right) = [left ++ run ++ right] := by
    apply words_of_solid
    · intro c inside
      simp only [List.mem_append] at inside
      rcases inside with (inLeft | inRun) | inRight
      · exact (opens c inLeft).1
      · exact isBlank_of_isWordChar (solid c inRun)
      · exact (closes c inRight).1
    · simp [some]
  rw [whole, List.mem_singleton] at member
  rw [Bool.eq_false_iff]
  intro same
  have letters := isWordChar_of_sameWord same (List.all_eq_true.1 (by decide))
  rw [member] at letters
  have empty : ∀ signs : List Char, Signs signs → (∀ c ∈ signs, isWordChar c = true) →
      signs = [] := by
    intro signs outside inside
    apply List.eq_nil_iff_forall_not_mem.2
    intro c inSigns
    have letter := inside c inSigns
    rw [(outside c inSigns).2] at letter
    cases letter
  have noLeft := empty left opens fun c inside => letters c (by simp [inside])
  have noRight := empty right closes fun c inside => letters c (by simp [inside])
  rw [member, noLeft, noRight, List.nil_append, List.append_nil, other] at same
  cases same

theorem quiet_blank {before behind : List Char} (first : Quiet before) (second : Quiet behind) :
    Quiet (before ++ ' ' :: behind) := by
  intro left right opens closes word member
  have split : left ++ (before ++ ' ' :: behind) ++ right =
      (left ++ before ++ []) ++ ' ' :: ([] ++ behind ++ right) := by simp
  rw [split, words_append_blank (by decide), List.mem_append] at member
  rcases member with inBefore | inBehind
  · exact first left [] opens (by simp [Signs]) word inBefore
  · exact second [] right (by simp [Signs]) closes word inBehind

theorem quiet_group {inner : List Char} (quiet : Quiet inner) :
    Quiet ('(' :: (inner ++ [')'])) := by
  intro left right opens closes word member
  have split : left ++ '(' :: (inner ++ [')']) ++ right =
      (left ++ ['(']) ++ inner ++ (')' :: right) := by simp
  rw [split] at member
  refine quiet _ _ ?_ ?_ word member
  · intro c inside
    rcases List.mem_append.1 inside with inLeft | last
    · exact opens c inLeft
    · rw [List.mem_singleton.1 last]
      decide
  · intro c inside
    rcases List.mem_cons.1 inside with rfl | inRight
    · decide
    · exact closes c inRight

theorem quiet_name {name : String} (named : IsName name)
    (other : Line.isThen name.toList = false) : Quiet name.toList :=
  quiet_run named.solid named.some other

theorem isWordChar_of_reserved {word : String} (member : word ∈ reserved) :
    ∀ c ∈ word.toList, isWordChar c = true := by
  have all : ∀ word ∈ reserved, word.toList.all isWordChar = true := by decide
  exact List.all_eq_true.1 (all word member)

theorem quiet_reserved {word : String} (member : word ∈ reserved) : Quiet word.toList := by
  have others : ∀ word ∈ reserved, word.toList ≠ [] ∧ Line.isThen word.toList = false := by decide
  exact quiet_run (isWordChar_of_reserved member) (others word member).1 (others word member).2

theorem quiet_operator {left right word : List Char} (first : Quiet left) (middle : Quiet word)
    (second : Quiet right) : Quiet ('(' :: (left ++ ' ' :: (word ++ ' ' :: (right ++ [')'])))) := by
  have inner := quiet_group (quiet_blank first (quiet_blank middle second))
  simpa using inner

theorem quiet_render {condition : Condition} (named : ∀ name ∈ condition.names, IsName name)
    (other : ∀ name ∈ condition.names, Line.isThen name.toList = false) :
    Quiet condition.render.toList := by
  induction condition with
  | conj left right leftIh rightIh =>
      simp only [names, List.mem_append, or_imp, forall_and] at named other
      rw [toList_render_conj]
      exact quiet_operator (leftIh named.1 other.1) (quiet_reserved (by decide))
        (rightIh named.2 other.2)
  | disj left right leftIh rightIh =>
      simp only [names, List.mem_append, or_imp, forall_and] at named other
      rw [toList_render_disj]
      exact quiet_operator (leftIh named.1 other.1) (quiet_reserved (by decide))
        (rightIh named.2 other.2)
  | neg inner ih =>
      have word : "not" ∈ reserved := by decide
      have quiet := quiet_group (quiet_blank (quiet_reserved word) (ih named other))
      rw [toList_render_neg]
      simpa using quiet
  | has name =>
      rw [toList_render_has]
      exact quiet_blank (quiet_reserved (by decide))
        (quiet_name (named name (by simp [names])) (other name (by simp [names])))
  | ident name => exact quiet_name (named name (by simp [names])) (other name (by simp [names]))
  | literal value =>
      cases value with
      | false => exact quiet_reserved (show "false" ∈ reserved by decide)
      | true => exact quiet_reserved (show "true" ∈ reserved by decide)

end SceneScript.Condition
