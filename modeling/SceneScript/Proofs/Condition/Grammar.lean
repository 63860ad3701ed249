import SceneScript.Condition.Parser

/-!
# The grammar of conditions

`Derives` is the grammar as a relation between tokens and conditions. It does not know the limits;
it only records how deep every token lies. `Fits` adds the limits. The readers accept exactly the
phrases that fit: each takes the longest front of its tokens that is such a phrase, which is the
front behind which no operator of its category can go on.
-/

namespace SceneScript.Condition

set_option autoImplicit false

/-- The levels of the grammar, from the loosest to the tightest. -/
inductive Category where
  | disjunction
  | conjunction
  | negation
  | atom
deriving DecidableEq

/--
The tokens are a phrase of the category and mean the condition. The last argument tells for each
token under how many parentheses and `not`s of the phrase it lies.
-/
inductive Derives : Category → List Token → Condition → List Nat → Prop where
  | name (name : String) : Derives .atom [.ident name] (.ident name) [0]
  | has (name : String) : Derives .atom [.has, .ident name] (.has name) [0, 0]
  | literal (value : Bool) : Derives .atom [.literal value] (.literal value) [0]
  | group {tokens : List Token} {condition : Condition} {depths : List Nat}
      (inner : Derives .disjunction tokens condition depths) :
      Derives .atom (.opening :: tokens ++ [.closing]) condition (0 :: depths.map (· + 1) ++ [0])
  | atom {tokens : List Token} {condition : Condition} {depths : List Nat}
      (inner : Derives .atom tokens condition depths) : Derives .negation tokens condition depths
  | not {tokens : List Token} {condition : Condition} {depths : List Nat}
      (inner : Derives .negation tokens condition depths) :
      Derives .negation (.not :: tokens) (.neg condition) (0 :: depths.map (· + 1))
  | negation {tokens : List Token} {condition : Condition} {depths : List Nat}
      (inner : Derives .negation tokens condition depths) :
      Derives .conjunction tokens condition depths
  | and {tokens others : List Token} {left right : Condition} {depths deeps : List Nat}
      (first : Derives .conjunction tokens left depths)
      (second : Derives .negation others right deeps) :
      Derives .conjunction (tokens ++ .and :: others) (.conj left right) (depths ++ 0 :: deeps)
  | conjunction {tokens : List Token} {condition : Condition} {depths : List Nat}
      (inner : Derives .conjunction tokens condition depths) :
      Derives .disjunction tokens condition depths
  | or {tokens others : List Token} {left right : Condition} {depths deeps : List Nat}
      (first : Derives .disjunction tokens left depths)
      (second : Derives .conjunction others right deeps) :
      Derives .disjunction (tokens ++ .or :: others) (.disj left right) (depths ++ 0 :: deeps)

/-- A phrase that is not too high, with no token under more than `allowance` signs. -/
def Fits (category : Category) (allowance : Nat) (tokens : List Token) (condition : Condition) :
    Prop :=
  ∃ depths, Derives category tokens condition depths ∧ condition.height ≤ depthLimit ∧
    ∀ depth ∈ depths, depth ≤ allowance

/-- Operands joined from the left, none of the joined trees too high. -/
inductive Chain (operator : Token) (join : Condition → Condition → Condition)
    (Operand : List Token → Condition → Prop) : List Token → Condition → Prop where
  | one {tokens : List Token} {condition : Condition} (single : Operand tokens condition) :
      Chain operator join Operand tokens condition
  | more {tokens others : List Token} {left right : Condition}
      (first : Chain operator join Operand tokens left) (second : Operand others right)
      (low : (join left right).height ≤ depthLimit) :
      Chain operator join Operand (tokens ++ operator :: others) (join left right)

/-- No operator of the list stands in front. -/
def Stops (operators tokens : List Token) : Prop :=
  ∀ token ∈ tokens.head?, token ∉ operators

/-- What a reader takes, without the proof that it takes something. -/
def taken (reader : Reader) (tokens : List Token) : Except Flaw (Condition × List Token) :=
  (reader tokens).map fun parsed => (parsed.condition, parsed.rest)

/-- A reader takes exactly the phrases behind which none of the operators stands. -/
def Reads (reader : Reader) (Phrase : List Token → Condition → Prop) (operators : List Token) :
    Prop :=
  ∀ tokens condition rest, taken reader tokens = .ok (condition, rest) ↔
    ∃ front, tokens = front ++ rest ∧ Phrase front condition ∧ Stops operators rest

section Equations

variable {operator token : Token} {join : Condition → Condition → Condition} {reader : Reader}
  {left : Condition} {tokens others : List Token}

def tailTaken (operator : Token) (join : Condition → Condition → Condition) (reader : Reader)
    (left : Condition) (tokens : List Token) : Except Flaw (Condition × List Token) :=
  (chainTail operator join reader left tokens).map fun found => (found.1, found.2.val)

theorem tailTaken_nil : tailTaken operator join reader left [] = .ok (left, []) := by
  rw [tailTaken, chainTail]
  rfl

theorem tailTaken_other (differs : token ≠ operator) :
    tailTaken operator join reader left (token :: others) = .ok (left, token :: others) := by
  rw [tailTaken, chainTail, if_neg differs]
  rfl

theorem tailTaken_operator :
    tailTaken operator join reader left (operator :: others) =
      (taken reader others).bind fun right =>
        (checkHeight (join left right.1)).bind fun joined =>
          tailTaken operator join reader joined right.2 := by
  rw [tailTaken, chainTail, if_pos rfl, taken]
  cases reader others with
  | error flaw => rfl
  | ok right =>
      simp only [Except.map, Except.bind]
      cases checkHeight (join left right.condition) with
      | error flaw => rfl
      | ok joined =>
          simp only [tailTaken]
          cases chainTail operator join reader joined right.rest <;> rfl

theorem taken_chain :
    taken (chain operator join reader) tokens =
      (taken reader tokens).bind fun first => tailTaken operator join reader first.1 first.2 := by
  simp only [taken, chain, tailTaken]
  cases reader tokens with
  | error flaw => rfl
  | ok first =>
      simp only [Except.map, Except.bind]
      cases chainTail operator join reader first.condition first.rest <;> rfl

variable {deeper : Nat} {name : String} {value : Bool}

theorem taken_not :
    taken (operand (deeper + 1)) (.not :: tokens) =
      (taken (operand deeper) tokens).bind fun inner =>
        (checkHeight (.neg inner.1)).map fun negated => (negated, inner.2) := by
  rw [taken, operand, taken]
  cases operand deeper tokens with
  | error flaw => rfl
  | ok inner =>
      simp only [Except.map, Except.bind]
      cases checkHeight (.neg inner.condition) <;> rfl

theorem taken_group :
    taken (operand (deeper + 1)) (.opening :: tokens) =
      (taken (disjunction (operand deeper)) tokens).bind fun inner =>
        match inner.2 with
        | .closing :: behind => .ok (inner.1, behind)
        | _ => .error .missingClosing := by
  rw [taken, operand, taken]
  cases disjunction (operand deeper) tokens with
  | error flaw => rfl
  | ok inner =>
      obtain ⟨condition, rest, shorter⟩ := inner
      cases rest with
      | nil => rfl
      | cons token behind => cases token <;> rfl

end Equations

theorem bind_eq_ok {ε α β : Type} {result : Except ε α} {next : α → Except ε β} {value : β} :
    result.bind next = .ok value ↔ ∃ found, result = .ok found ∧ next found = .ok value := by
  cases result <;> simp [Except.bind]

theorem checkHeight_eq_ok {condition checked : Condition} :
    checkHeight condition = .ok checked ↔ condition = checked ∧ condition.height ≤ depthLimit := by
  unfold checkHeight
  split
  · rename_i low
    simp [low]
  · rename_i high
    simp [high]

section Chains

variable {operator : Token} {join : Condition → Condition → Condition} {reader : Reader}
  {Operand : List Token → Condition → Prop} {operators : List Token}

theorem tailTaken_stops {condition : Condition} {rest : List Token}
    (stops : Stops (operator :: operators) rest) :
    tailTaken operator join reader condition rest = .ok (condition, rest) := by
  cases rest with
  | nil => exact tailTaken_nil
  | cons token others =>
      apply tailTaken_other
      intro same
      exact stops token rfl (by simp [same])

/-- Behind a chain the reader stands in the same place as behind a single operand. -/
theorem taken_of_chain (reads : Reads reader Operand operators) (outside : operator ∉ operators)
    {front : List Token} {condition : Condition}
    (joined : Chain operator join Operand front condition) (rest : List Token)
    (stops : Stops operators rest) :
    taken (chain operator join reader) (front ++ rest) =
      tailTaken operator join reader condition rest := by
  induction joined generalizing rest with
  | one single =>
      rw [taken_chain, (reads _ _ rest).2 ⟨_, rfl, single, stops⟩]
      rfl
  | more first second low ih =>
      rename_i tokens others left right
      have next : Stops operators (operator :: (others ++ rest)) := by
        intro token member
        rw [← Option.some.inj member]
        exact outside
      rw [List.append_assoc, List.cons_append, ih _ next, tailTaken_operator,
        (reads _ _ rest).2 ⟨others, rfl, second, stops⟩]
      simp only [Except.bind, checkHeight, if_pos low]

-- The induction is on the tokens that are left; `seen` is the chain that was joined before them.
theorem chain_of_tailTaken (reads : Reads reader Operand operators)
    {seen tokens rest : List Token} {left condition : Condition}
    (started : Chain operator join Operand seen left) (stopped : Stops operators tokens)
    (found : tailTaken operator join reader left tokens = .ok (condition, rest)) :
    ∃ others, tokens = others ++ rest ∧ Chain operator join Operand (seen ++ others) condition ∧
      Stops (operator :: operators) rest := by
  induction counted : tokens.length using Nat.strongRecOn generalizing seen tokens left with
  | ind size ih =>
      cases tokens with
      | nil =>
          rw [tailTaken_nil] at found
          cases found
          exact ⟨[], rfl, by simpa using started, by simp [Stops]⟩
      | cons token others =>
          by_cases same : token = operator
          · subst same
            rw [tailTaken_operator] at found
            obtain ⟨⟨right, after⟩, operandTaken, checked⟩ := bind_eq_ok.1 found
            obtain ⟨joined, height, later⟩ := bind_eq_ok.1 checked
            obtain ⟨equal, low⟩ := checkHeight_eq_ok.1 height
            obtain ⟨front, split, second, behind⟩ := (reads _ _ _).1 operandTaken
            subst equal split
            have shorter : after.length < size := by
              rw [← counted, List.length_cons, List.length_append]
              omega
            obtain ⟨more, tail, whole, ended⟩ :=
              ih _ shorter (started.more second low) behind later rfl
            refine ⟨token :: (front ++ more), ?_, ?_, ended⟩
            · simp [tail]
            · simpa using whole
          · rw [tailTaken_other same] at found
            cases found
            refine ⟨[], rfl, by simpa using started, ?_⟩
            intro first member
            rw [← Option.some.inj member]
            simp only [List.mem_cons, not_or]
            exact ⟨same, stopped token rfl⟩

theorem reads_chain (reads : Reads reader Operand operators) (outside : operator ∉ operators) :
    Reads (chain operator join reader) (Chain operator join Operand) (operator :: operators) := by
  intro tokens condition rest
  constructor
  · intro found
    rw [taken_chain] at found
    obtain ⟨⟨first, after⟩, operandTaken, later⟩ := bind_eq_ok.1 found
    obtain ⟨front, split, single, behind⟩ := (reads _ _ _).1 operandTaken
    obtain ⟨more, tail, whole, ended⟩ := chain_of_tailTaken reads (.one single) behind later
    exact ⟨front ++ more, by rw [split, tail, List.append_assoc], whole, ended⟩
  · rintro ⟨front, rfl, whole, stops⟩
    have clear : Stops operators rest := fun token member inside =>
      stops token member (List.mem_cons_of_mem _ inside)
    rw [taken_of_chain reads outside whole rest clear, tailTaken_stops stops]

end Chains

section Phrases

variable {allowance : Nat} {tokens : List Token} {condition : Condition}

def Chained (allowance : Nat) : Category → List Token → Condition → Prop
  | .conjunction => Chain .and .conj (Fits .negation allowance)
  | .disjunction => Chain .or .disj (Fits .conjunction allowance)
  | .negation | .atom => fun _ _ => True

theorem bounded_parts {depths deeps : List Nat}
    (bounded : ∀ depth ∈ depths ++ 0 :: deeps, depth ≤ allowance) :
    (∀ depth ∈ depths, depth ≤ allowance) ∧ ∀ depth ∈ deeps, depth ≤ allowance := by
  constructor
  · intro depth member
    exact bounded depth (by simp [member])
  · intro depth member
    exact bounded depth (by simp [member])

theorem chained_of_derives {category : Category} {depths : List Nat}
    (derivation : Derives category tokens condition depths) (low : condition.height ≤ depthLimit)
    (bounded : ∀ depth ∈ depths, depth ≤ allowance) :
    Chained allowance category tokens condition := by
  induction derivation with
  | negation inner _ => exact .one ⟨_, inner, low, bounded⟩
  | conjunction inner _ => exact .one ⟨_, inner, low, bounded⟩
  | @and _ _ left right _ _ first second ih _ =>
      obtain ⟨shallow, shallows⟩ := bounded_parts bounded
      have heights : left.height ≤ depthLimit ∧ right.height ≤ depthLimit := by
        simp only [height] at low
        omega
      exact Chain.more (ih heights.1 shallow) ⟨_, second, heights.2, shallows⟩ low
  | @or _ _ left right _ _ first second ih _ =>
      obtain ⟨shallow, shallows⟩ := bounded_parts bounded
      have heights : left.height ≤ depthLimit ∧ right.height ≤ depthLimit := by
        simp only [height] at low
        omega
      exact Chain.more (ih heights.1 shallow) ⟨_, second, heights.2, shallows⟩ low
  | name name => trivial
  | has name => trivial
  | literal value => trivial
  | group inner _ => trivial
  | atom inner _ => trivial
  | not inner _ => trivial

theorem fits_of_chain {operator : Token} {join : Condition → Condition → Condition}
    {part whole : Category}
    (embed : ∀ {tokens condition depths}, Derives part tokens condition depths →
      Derives whole tokens condition depths)
    (extend : ∀ {tokens others left right depths deeps}, Derives whole tokens left depths →
      Derives part others right deeps →
      Derives whole (tokens ++ operator :: others) (join left right) (depths ++ 0 :: deeps))
    (joined : Chain operator join (Fits part allowance) tokens condition) :
    Fits whole allowance tokens condition := by
  induction joined with
  | one single =>
      obtain ⟨depths, inner, low, bounded⟩ := single
      exact ⟨depths, embed inner, low, bounded⟩
  | more first second low ih =>
      obtain ⟨depths, before, -, shallow⟩ := ih
      obtain ⟨deeps, behind, -, bounded⟩ := second
      refine ⟨depths ++ 0 :: deeps, extend before behind, low, ?_⟩
      intro depth member
      simp only [List.mem_append, List.mem_cons] at member
      rcases member with inside | rfl | inside
      · exact shallow depth inside
      · exact Nat.zero_le _
      · exact bounded depth inside

theorem fits_conjunction_iff :
    Fits .conjunction allowance tokens condition ↔
      Chain .and .conj (Fits .negation allowance) tokens condition := by
  constructor
  · rintro ⟨depths, derivation, low, bounded⟩
    exact chained_of_derives derivation low bounded
  · exact fits_of_chain .negation .and

theorem fits_disjunction_iff :
    Fits .disjunction allowance tokens condition ↔
      Chain .or .disj (Fits .conjunction allowance) tokens condition := by
  constructor
  · rintro ⟨depths, derivation, low, bounded⟩
    exact chained_of_derives derivation low bounded
  · exact fits_of_chain .conjunction .or

theorem Derives.depths_ne_nil {category : Category} {depths : List Nat}
    (derivation : Derives category tokens condition depths) : depths ≠ [] := by
  induction derivation <;> simp_all

theorem exists_deeper {depths : List Nat} (some : depths ≠ [])
    (bounded : ∀ depth ∈ depths.map (· + 1), depth ≤ allowance) :
    ∃ deeper, allowance = deeper + 1 ∧ ∀ depth ∈ depths, depth ≤ deeper := by
  obtain ⟨first, others, rfl⟩ := List.exists_cons_of_ne_nil some
  have room : first + 1 ≤ allowance := bounded _ (by simp)
  refine ⟨allowance - 1, by omega, ?_⟩
  intro depth member
  have below : depth + 1 ≤ allowance := bounded _ (List.mem_map_of_mem member)
  omega

theorem fits_not (inner : Fits .negation allowance tokens condition)
    (low : (Condition.neg condition).height ≤ depthLimit) :
    Fits .negation (allowance + 1) (.not :: tokens) (.neg condition) := by
  obtain ⟨depths, derivation, -, bounded⟩ := inner
  refine ⟨_, .not derivation, low, ?_⟩
  intro depth member
  simp only [List.mem_cons, List.mem_map] at member
  rcases member with rfl | ⟨inside, member, rfl⟩
  · exact Nat.zero_le _
  · exact Nat.succ_le_succ (bounded inside member)

theorem fits_group (inner : Fits .disjunction allowance tokens condition) :
    Fits .negation (allowance + 1) (.opening :: tokens ++ [.closing]) condition := by
  obtain ⟨depths, derivation, low, bounded⟩ := inner
  refine ⟨_, .atom (.group derivation), low, ?_⟩
  intro depth member
  simp only [List.mem_append, List.mem_cons, List.mem_map, List.not_mem_nil, or_false] at member
  rcases member with (rfl | ⟨inside, member, rfl⟩) | rfl
  · exact Nat.zero_le _
  · exact Nat.succ_le_succ (bounded inside member)
  · exact Nat.zero_le _

theorem stops_nil (tokens : List Token) : Stops [] tokens :=
  fun _ _ => List.not_mem_nil

theorem reads_disjunction (reads : Reads (operand allowance) (Fits .negation allowance) []) :
    Reads (disjunction (operand allowance)) (Fits .disjunction allowance) [.or, .and] := by
  have inner : Reads (conjunction (operand allowance)) (Fits .conjunction allowance) [.and] := by
    intro tokens condition rest
    simp only [fits_conjunction_iff]
    exact reads_chain reads (by simp) tokens condition rest
  intro tokens condition rest
  simp only [fits_disjunction_iff]
  exact reads_chain inner (by simp) tokens condition rest

-- A reader opens a sign only with room for it, so `deeper` covers both kinds of recursion.
theorem fits_of_taken_operand
    (deeper : ∀ room, allowance = room + 1 → Reads (operand room) (Fits .negation room) [])
    {rest : List Token} (found : taken (operand allowance) tokens = .ok (condition, rest)) :
    ∃ front, tokens = front ++ rest ∧ Fits .negation allowance front condition := by
  cases tokens with
  | nil => simp [taken, operand, Except.map] at found
  | cons token others =>
      cases token with
      | opening =>
          cases allowance with
          | zero => simp [taken, operand, Except.map] at found
          | succ room =>
              rw [taken_group] at found
              obtain ⟨⟨inner, after⟩, inside, closed⟩ := bind_eq_ok.1 found
              obtain ⟨front, split, fits, -⟩ :=
                (reads_disjunction (deeper room rfl) _ _ _).1 inside
              subst split
              simp only at closed
              split at closed
              · cases closed
                exact ⟨.opening :: front ++ [.closing], by simp, fits_group fits⟩
              · cases closed
      | not =>
          cases allowance with
          | zero => simp [taken, operand, Except.map] at found
          | succ room =>
              rw [taken_not] at found
              obtain ⟨⟨inner, after⟩, inside, checked⟩ := bind_eq_ok.1 found
              obtain ⟨front, split, fits, -⟩ := (deeper room rfl _ _ _).1 inside
              subst split
              cases height : checkHeight (.neg inner) with
              | error flaw => simp [height, Except.map] at checked
              | ok negated =>
                  obtain ⟨rfl, low⟩ := checkHeight_eq_ok.1 height
                  simp only [height, Except.map, Except.ok.injEq, Prod.mk.injEq] at checked
                  obtain ⟨rfl, rfl⟩ := checked
                  exact ⟨.not :: front, rfl, fits_not fits low⟩
      | has =>
          cases others with
          | nil => simp [taken, operand, Except.map] at found
          | cons next behind =>
              cases next <;> simp [taken, operand, Except.map] at found
              obtain ⟨rfl, rfl⟩ := found
              exact ⟨[_, _], rfl, _, .atom (.has _), by simp [height, depthLimit], by simp⟩
      | ident name =>
          simp only [taken, operand, Except.map, Except.ok.injEq, Prod.mk.injEq] at found
          obtain ⟨rfl, rfl⟩ := found
          exact ⟨[_], rfl, _, .atom (.name name), by simp [height, depthLimit], by simp⟩
      | literal value =>
          simp only [taken, operand, Except.map, Except.ok.injEq, Prod.mk.injEq] at found
          obtain ⟨rfl, rfl⟩ := found
          exact ⟨[_], rfl, _, .atom (.literal value), by simp [height, depthLimit], by simp⟩
      | closing => simp [taken, operand, Except.map] at found
      | and => simp [taken, operand, Except.map] at found
      | or => simp [taken, operand, Except.map] at found

theorem taken_operand_of_fits
    (deeper : ∀ room, allowance = room + 1 → Reads (operand room) (Fits .negation room) [])
    {front : List Token} (fits : Fits .negation allowance front condition) (rest : List Token) :
    taken (operand allowance) (front ++ rest) = .ok (condition, rest) := by
  obtain ⟨depths, derivation, low, bounded⟩ := fits
  cases derivation with
  | atom inner =>
      cases inner with
      | name name => simp [taken, operand, Except.map]
      | has name => simp [taken, operand, Except.map]
      | literal value => simp [taken, operand, Except.map]
      | @group tokens _ depths inner =>
          obtain ⟨room, rfl, shallow⟩ := exists_deeper inner.depths_ne_nil
            (fun depth member => bounded depth (by
              simp only [List.mem_append, List.mem_cons]
              exact .inl (.inr member)))
          have inside := (reads_disjunction (deeper room rfl) (tokens ++ .closing :: rest) condition
            (.closing :: rest)).2 ⟨tokens, rfl, ⟨depths, inner, low, shallow⟩, by simp [Stops]⟩
          rw [show Token.opening :: tokens ++ [.closing] ++ rest =
            .opening :: (tokens ++ .closing :: rest) by simp, taken_group, inside]
          rfl
  | @not tokens inner depths derivation =>
      obtain ⟨room, rfl, shallow⟩ := exists_deeper derivation.depths_ne_nil
        (fun depth member => bounded depth (List.mem_cons_of_mem _ member))
      have lower : inner.height ≤ depthLimit := by
        simp only [height] at low
        omega
      have inside := (deeper room rfl (tokens ++ rest) inner rest).2
        ⟨tokens, rfl, ⟨depths, derivation, lower, shallow⟩, stops_nil rest⟩
      rw [List.cons_append, taken_not, inside]
      simp only [Except.bind, checkHeight, if_pos low]
      rfl

theorem reads_operand (allowance : Nat) :
    Reads (operand allowance) (Fits .negation allowance) [] := by
  induction allowance using Nat.strongRecOn with
  | ind allowance ih =>
      have deeper : ∀ room, allowance = room + 1 →
          Reads (operand room) (Fits .negation room) [] := fun room same => ih room (by omega)
      intro tokens condition rest
      constructor
      · intro found
        obtain ⟨front, split, fits⟩ := fits_of_taken_operand deeper found
        exact ⟨front, split, fits, stops_nil rest⟩
      · rintro ⟨front, rfl, fits, -⟩
        exact taken_operand_of_fits deeper fits rest

end Phrases

end SceneScript.Condition
