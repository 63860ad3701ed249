import Mathlib.Data.List.TakeWhile
import SceneScript.Proofs.Condition.Rendering

/-!
# Lexemes of a condition

`Lexes` says what the tokens of a text are without saying how they are found: the text falls into
blanks, parentheses and words, no word has a word character behind it, and a word spells a keyword
in any case or is a name. The scanner finds exactly these tokens. A name is never spelled like a
keyword, so tokens that are written with single spaces between them are found again.
-/

namespace SceneScript.Condition.Token

open SceneScript.Text

set_option autoImplicit false

/-- The word stands for the token: it is a keyword in any case, or a name as it is written. -/
inductive Spells : List Char → Token → Prop where
  | keyword {word : List Char} {entry : List Char × Token} (listed : entry ∈ keywords)
      (same : lower word = entry.1) : Spells word entry.2
  | name {name : String} (named : IsName name) : Spells name.toList (ident name)

/-- The text is made of the lexemes of the tokens, and words are as long as they can be. -/
inductive Lexes : List Char → List Token → Prop where
  | done : Lexes [] []
  | blank {c : Char} {rest : List Char} {tokens : List Token} (white : isBlank c = true)
      (later : Lexes rest tokens) : Lexes (c :: rest) tokens
  | opening {rest : List Char} {tokens : List Token} (later : Lexes rest tokens) :
      Lexes ('(' :: rest) (opening :: tokens)
  | closing {rest : List Char} {tokens : List Token} (later : Lexes rest tokens) :
      Lexes (')' :: rest) (closing :: tokens)
  | word {word rest : List Char} {token : Token} {tokens : List Token} (filled : word ≠ [])
      (letters : ∀ c ∈ word, isWordChar c = true) (ends : ∀ c ∈ rest.head?, isWordChar c = false)
      (spelled : Spells word token) (later : Lexes rest tokens) :
      Lexes (word ++ rest) (token :: tokens)

section Words

variable {word : List Char} {token : Token}

theorem ofWord_of_spells (spelled : Spells word token) : ofWord word = token := by
  cases spelled with
  | keyword listed same =>
      have known : ∀ entry ∈ keywords, keywords.lookup entry.1 = some entry.2 := by decide
      rw [ofWord, same, known _ listed]
      rfl
  | name named => exact ofWord_name named

theorem spells_ofWord (filled : word ≠ []) (letters : ∀ c ∈ word, isWordChar c = true) :
    Spells word (ofWord word) := by
  cases found : keywords.lookup (lower word) with
  | some token =>
      obtain ⟨before, behind, split, -⟩ := List.lookup_eq_some_iff.1 found
      have listed : (lower word, token) ∈ keywords := by simp [split]
      rw [ofWord, found]
      exact .keyword listed rfl
  | none =>
      have named : IsName (String.ofList word) := by
        refine ⟨by simpa using filled, by simpa using letters, ?_⟩
        intro keyword listed
        have entries : ∀ keyword ∈ reserved,
            ∃ entry ∈ keywords, entry.1 = lower keyword.toList := by
          decide
        obtain ⟨entry, member, small⟩ := entries keyword listed
        have differs := List.lookup_eq_none_iff.1 found entry member
        rw [small] at differs
        simpa [sameWord] using differs
      have written := Spells.name named
      rw [String.toList_ofList] at written
      rwa [ofWord, found]

theorem isName_of_spells {name : String} (spelled : Spells word (ident name)) : IsName name := by
  generalize same : ident name = token at spelled
  cases spelled with
  | keyword listed _ =>
      simp only [keywords, List.mem_cons, List.not_mem_nil, or_false] at listed
      rcases listed with rfl | rfl | rfl | rfl | rfl | rfl <;> cases same
  | name named =>
      cases same
      exact named

end Words

section Cuts

variable {left right : List Char}

theorem scan_eq_error_iff {text : List Char} {bad : Char} :
    scan text = .error bad ↔ text.find? (fun c => !isTokenChar c) = some bad := by
  constructor
  · intro failed
    cases first : text.find? fun c => !isTokenChar c with
    | some other =>
        rw [scan_error first] at failed
        cases failed
        rfl
    | none =>
        obtain ⟨tokens, scanned⟩ := scan_ok first
        rw [scanned] at failed
        cases failed
  · exact scan_error

theorem scan_mark {c : Char} {mark : List Token} (ends : mark? c = some mark) (rest : List Char) :
    scan (c :: rest) = (scan rest).map fun behind => mark ++ behind := by
  have cut := scan_append_mark ends [] rest
  rw [List.nil_append] at cut
  exact cut

theorem scan_append_bad {c : Char} (bad : isTokenChar c = false) (left rest : List Char) :
    scan (left ++ c :: rest) = (scan left).bind fun _ => .error c := by
  cases first : left.find? fun c => !isTokenChar c with
  | some other =>
      have whole : (left ++ c :: rest).find? (fun c => !isTokenChar c) = some other := by
        rw [List.find?_append, first]
        rfl
      rw [scan_error whole, scan_error first]
      rfl
  | none =>
      have whole : (left ++ c :: rest).find? (fun c => !isTokenChar c) = some c := by
        rw [List.find?_append, first, List.find?_cons, bad]
        rfl
      obtain ⟨before, scanned⟩ := scan_ok first
      rw [scan_error whole, scanned]
      rfl

/-- A text may be cut where no word goes on. -/
theorem scan_append (ends : ∀ c ∈ right.head?, isWordChar c = false) :
    scan (left ++ right) =
      (scan left).bind fun before => (scan right).map fun behind => before ++ behind := by
  cases right with
  | nil =>
      rw [List.append_nil, scan_nil]
      cases scan left <;> simp [Except.bind, Except.map]
  | cons c rest =>
      cases marked : mark? c with
      | some mark =>
          rw [scan_append_mark marked, scan_mark marked]
          cases scan left with
          | error bad => rfl
          | ok before => cases scan rest <;> simp [Except.bind, Except.map]
      | none =>
          have bad : isTokenChar c = false := by
            rw [isTokenChar_eq, marked, ends c rfl]
            rfl
          have alone : (c :: rest).find? (fun c => !isTokenChar c) = some c := by simp [bad]
          rw [scan_append_bad bad, scan_error alone]
          rfl

theorem scan_blanks {blanks : List Char} (white : ∀ c ∈ blanks, isBlank c = true)
    (text : List Char) : scan (blanks ++ text) = scan text := by
  induction blanks with
  | nil => rfl
  | cons c blanks ih =>
      have marked := mark?_of_blank (white c (by simp))
      rw [List.cons_append, scan_mark marked, ih fun d member => white d (by simp [member])]
      cases scan text <;> rfl

theorem scan_gap {gap : List Char} (wide : gap ≠ []) (white : ∀ c ∈ gap, isBlank c = true) :
    scan (left ++ (gap ++ right)) =
      (scan left).bind fun before => (scan right).map fun behind => before ++ behind := by
  have ends : ∀ c ∈ (gap ++ right).head?, isWordChar c = false := by
    intro c first
    obtain ⟨d, rest, rfl⟩ := List.exists_cons_of_ne_nil wide
    cases first
    refine Bool.eq_false_iff.2 fun letter => ?_
    have solid := isBlank_of_isWordChar letter
    rw [white c (by simp)] at solid
    cases solid
  rw [scan_append ends, scan_blanks white]

end Cuts

section Lexemes

variable {text : List Char} {tokens : List Token}

theorem scan_of_lexes (lexes : Lexes text tokens) : scan text = .ok tokens := by
  have opened : mark? '(' = some [Token.opening] := by decide
  have closed : mark? ')' = some [Token.closing] := by decide
  induction lexes with
  | done => rfl
  | blank white _ ih =>
      rw [scan_mark (mark?_of_blank white), ih]
      rfl
  | opening _ ih =>
      rw [scan_mark opened, ih]
      rfl
  | closing _ ih =>
      rw [scan_mark closed, ih]
      rfl
  | word filled letters ends spelled _ ih =>
      rw [scan_append ends, scan_word letters filled, ofWord_of_spells spelled, ih]
      rfl

-- A word is taken as a whole, so the induction is on the length of the text.
theorem exists_lexes (clean : ∀ c ∈ text, isTokenChar c = true) : ∃ tokens, Lexes text tokens := by
  induction counted : text.length using Nat.strongRecOn generalizing text with
  | ind size ih =>
      cases text with
      | nil => exact ⟨[], .done⟩
      | cons c rest =>
          have later : ∀ part, part <:+ rest → ∃ tokens, Lexes part tokens := by
            intro part suffix
            have short := suffix.length_le
            rw [List.length_cons] at counted
            refine ih part.length (by omega) ?_ rfl
            exact fun d member => clean d (List.mem_cons_of_mem c (suffix.subset member))
          obtain ⟨others, behind⟩ := later rest (List.suffix_refl rest)
          have token := clean c (by simp)
          simp only [isTokenChar, Bool.or_eq_true, beq_iff_eq] at token
          rcases token with ((white | rfl) | rfl) | letter
          · exact ⟨_, .blank white behind⟩
          · exact ⟨_, .opening behind⟩
          · exact ⟨_, .closing behind⟩
          · have letters : ∀ d ∈ c :: rest.takeWhile isWordChar, isWordChar d = true := by
              intro d member
              rcases List.mem_cons.1 member with rfl | inside
              · exact letter
              · exact List.mem_takeWhile_imp inside
            have ends := stops_dropWhile isWordChar rest
            obtain ⟨tokens, lexes⟩ := later _ (List.dropWhile_suffix isWordChar)
            have spelled := spells_ofWord (List.cons_ne_nil c _) letters
            have whole := Lexes.word (List.cons_ne_nil c _) letters ends spelled lexes
            rw [List.cons_append, List.takeWhile_append_dropWhile] at whole
            exact ⟨_, whole⟩

theorem scan_eq_ok_iff : scan text = .ok tokens ↔ Lexes text tokens := by
  constructor
  · intro scanned
    have clean : ∀ c ∈ text, isTokenChar c = true := by
      cases first : text.find? fun c => !isTokenChar c with
      | some bad =>
          rw [scan_error first] at scanned
          cases scanned
      | none => simpa using first
    obtain ⟨others, lexes⟩ := exists_lexes clean
    rw [scan_of_lexes lexes] at scanned
    cases scanned
    exact lexes
  · exact scan_of_lexes

theorem isName_of_lexes (lexes : Lexes text tokens) {name : String} (member : ident name ∈ tokens) :
    IsName name := by
  induction lexes with
  | done => cases member
  | blank _ _ ih => exact ih member
  | opening _ ih | closing _ ih =>
      rcases List.mem_cons.1 member with same | later
      · cases same
      · exact ih later
  | word _ _ _ spelled _ ih =>
      rcases List.mem_cons.1 member with rfl | later
      · exact isName_of_spells spelled
      · exact ih later

end Lexemes

section Written

variable {tokens : List Token}

theorem toList_showAll (tokens : List Token) :
    (showAll tokens).toList = unwords (tokens.map fun token => token.text.toList) := by
  rw [showAll, String.toList_intercalate, List.map_map]
  rfl

theorem scan_text {token : Token} (named : ∀ name, token = ident name → IsName name) :
    scan token.text.toList = .ok [token] := by
  cases token with
  | ident name => exact scan_name (named name rfl)
  | literal value => cases value <;> rfl
  | _ => rfl

theorem scan_showAll (named : ∀ name, ident name ∈ tokens → IsName name) :
    scan (showAll tokens).toList = .ok tokens := by
  rw [toList_showAll]
  induction tokens with
  | nil => rfl
  | cons token tokens ih =>
      have first : scan token.text.toList = .ok [token] :=
        scan_text fun name same => named name (by simp [same])
      have later := ih fun name member => named name (by simp [member])
      cases tokens with
      | nil => simpa [unwords] using first
      | cons next others =>
          have blank : mark? ' ' = some [] := by decide
          have joined := scan_between blank first later
          simpa [unwords] using joined

end Written

theorem exists_front_of_trailing {text : List Char} {rest : List Token}
    (failed : parse text = .error (.trailing rest)) :
    ∃ front condition, scan text = .ok (front ++ rest) ∧
      taken (disjunction (operand depthLimit)) (front ++ rest) = .ok (condition, rest) := by
  cases scanned : scan text with
  | error bad =>
      rw [parse, scanned] at failed
      cases failed
  | ok tokens =>
      rw [parse_of_scan scanned] at failed
      have overrun := ((conclude_taken tokens).2.1 rest).1 failed
      obtain ⟨condition, found, -⟩ := overrun_iff_taken.1 overrun
      obtain ⟨front, -, -, rfl, -⟩ := overrun
      exact ⟨front, condition, rfl, found⟩

/--
The scanner finds exactly the lexemes of a text, each word as long as it can be. So blanks between
two texts keep their tokens apart, and the first text that cannot be scanned decides the failure. It
fails exactly if some character belongs to no token, with the first such character. Tokens whose
names are names are found again in their written form; the tokens of a text are such, and therefore
the text that is reported behind a complete condition has exactly the tokens that were left over.
-/
theorem scan_lexemes (text : List Char) :
    (∀ tokens, scan text = .ok tokens ↔ Lexes text tokens) ∧
    (∀ gap right : List Char, gap ≠ [] → (∀ c ∈ gap, isBlank c = true) →
      scan (text ++ (gap ++ right)) =
        (scan text).bind fun before => (scan right).map fun behind => before ++ behind) ∧
    (∀ bad, scan text = .error bad ↔ text.find? (fun c => !isTokenChar c) = some bad) ∧
    (∀ tokens, (∀ name, ident name ∈ tokens → IsName name) →
      scan (showAll tokens).toList = .ok tokens) ∧
    (∀ number rest, parseAt number text = .error ⟨number, .condition (.trailing rest)⟩ →
      ∃ front condition, scan text = .ok (front ++ rest) ∧
        taken (disjunction (operand depthLimit)) (front ++ rest) = .ok (condition, rest) ∧
        (Fault.trailing rest).message = "条件表达式末尾存在多余内容: '" ++ showAll rest ++ "'" ∧
        scan (showAll rest).toList = .ok rest) := by
  refine ⟨fun tokens => scan_eq_ok_iff, fun gap right wide white => scan_gap wide white,
    fun bad => scan_eq_error_iff, fun tokens named => scan_showAll named, ?_⟩
  intro number rest failed
  obtain ⟨fault, refused, same⟩ := parseAt_eq_error.1 failed
  cases same
  obtain ⟨front, condition, scanned, found⟩ := exists_front_of_trailing refused
  refine ⟨front, condition, scanned, found, rfl, ?_⟩
  apply scan_showAll
  intro name member
  exact isName_of_lexes (scan_eq_ok_iff.1 scanned) (List.mem_append_right front member)

/-- A condition that is closed once too often, with keywords and blanks of several kinds. -/
def porch : String :=
  "(Has Key)oR　not open\u00a0)aND(Door)"

theorem scan_lexemes_porch :
    parseAt 4 porch.toList =
      .error ⟨4, .condition (.trailing [closing, and, opening, ident "Door", closing])⟩ ∧
    scan ") and ( Door )".toList = .ok [closing, and, opening, ident "Door", closing] ∧
    scan ("(Has Key".toList ++ ("\t　".toList ++ "è b&".toList)) = .error 'è' := by
  have failed : parseAt 4 porch.toList =
      .error ⟨4, .condition (.trailing [closing, and, opening, ident "Door", closing])⟩ := by
    decide +kernel
  obtain ⟨-, -, -, -, -, again⟩ := (scan_lexemes porch.toList).2.2.2.2 4 _ failed
  refine ⟨failed, again, ?_⟩
  rw [(scan_lexemes _).2.1 _ _ (by decide) (List.all_eq_true.1 (by decide))]
  decide +kernel

end SceneScript.Condition.Token
