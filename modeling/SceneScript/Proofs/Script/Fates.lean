import SceneScript.Proofs.Script.Joining
import SceneScript.Proofs.Script.Preorder

/-!
# What becomes of every line

Reading makes of a line a header, the start of a statement, the end of a block or of its then part,
or nothing, and in the last case it leaves a warning. The account of a script has one entry for each
of its lines. `Nest.Moves` says what a line can do to the blocks that are open at it, and with which
warnings; `Nest.Reads` puts these moves together to the reading of a whole scene, so that what is
said about the lines of a scene is proved for each kind of move.
-/

namespace SceneScript

open SceneScript.Text

set_option autoImplicit false

/-- What reading makes of a line. -/
inductive Fate where
  | header
  | statement (head : Statement.Head)
  | terminator
  | skipped
deriving DecidableEq

/-- A line and what became of it. -/
structure Entry where
  line : Line
  fate : Fate
deriving DecidableEq

namespace Entry

def head? (entry : Entry) : Option Statement.Head :=
  match entry.fate with
  | .statement head => some head
  | _ => none

def isSkipped (entry : Entry) : Bool :=
  entry.fate == .skipped

/-- A line that ended a block, or its then part, and starts with the word. -/
def ends (word : String) (entry : Entry) : Bool :=
  entry.fate == .terminator && entry.line.startsWith word

def trails (entry : Entry) : Bool :=
  match entry.fate with
  | .statement (.branch _) => 1 < ((entry.line.words.drop 1).dropWhile (!Line.isThen ·)).length
  | _ => false

/-- What the line shows by itself of its fate. -/
structure Sound (entry : Entry) : Prop where
  header : entry.fate = .header ↔ entry.line.isHeader = true
  statement : ∀ head, entry.fate = .statement head → entry.line.head? = some head
  terminator : entry.fate = .terminator →
    entry.line.startsWith "else" = true ∨ entry.line.startsWith "end" = true

end Entry

namespace Warning

def isSkip (warning : Warning) : Bool :=
  match warning.notice with
  | .outsideScene _ | .stray _ | .unknown _ => true
  | _ => false

def isMissingEnd (warning : Warning) : Bool :=
  match warning.notice with
  | .missingEnd _ => true
  | _ => false

def isAfterThen (warning : Warning) : Bool :=
  match warning.notice with
  | .afterThen _ => true
  | _ => false

end Warning

namespace Nest

def fate (nest : Nest) (line : Line) : Fate :=
  match nest.close? line, line.head? with
  | some _, _ => .terminator
  | none, some head => .statement head
  | none, none => .skipped

/-- The account of lines inside a scene, up to the first one that cannot be read. -/
def account (nest : Nest) : List Line → List Entry
  | [] => []
  | line :: rest =>
    match nest.step line with
    | .error _ => []
    | .ok (next, _) => ⟨line, nest.fate line⟩ :: next.account rest

/-- What a line can do: its fate, the warnings about it, and the blocks that are open behind it. -/
inductive Moves (line : Line) : Nest → Fate → List Warning → Nest → Prop where
  | turn {recent before : List Statement} {condition : Condition} {number : Nat}
      {outer : List OpenBlock} (starts : line.startsWith "else" = true) :
      Moves line ⟨recent, ⟨.thenPart condition, number, before⟩ :: outer⟩ .terminator []
        ⟨[], ⟨.elsePart condition recent.reverse, number, before⟩ :: outer⟩
  | close {recent : List Statement} {block : OpenBlock} {outer : List OpenBlock}
      (starts : line.startsWith "end" = true) :
      Moves line ⟨recent, block :: outer⟩ .terminator []
        ⟨block.opening.close recent.reverse :: block.before, outer⟩
  | add {nest : Nest} {reading : Line.Reading} {head : Statement.Head}
      (read : line.read = .ok reading) (gives : reading.head = some head) :
      Moves line nest (.statement head) reading.warnings (nest.add line head)
  | skip {nest : Nest} {warning : Warning} (own : warning.line = line.number)
      (skips : warning.isSkip = true) : Moves line nest .skipped [warning] nest

/-- A scene that is read to its end, with the account of its lines and the warnings about it. -/
inductive Reads : Nest → List Entry → List Warning → Block → Prop where
  | finish (nest : Nest) :
      Reads nest [] (Nest.finish nest.recent nest.blocks).1 (Nest.finish nest.recent nest.blocks).2
  | step {line : Line} {nest next : Nest} {fate : Fate} {warnings others : List Warning}
      {entries : List Entry} {body : Block} (moves : Moves line nest fate warnings next)
      (later : Reads next entries others body) :
      Reads nest (⟨line, fate⟩ :: entries) (warnings ++ others) body

theorem moves_of_close? {nest closed : Nest} {line : Line}
    (closes : nest.close? line = some closed) : Moves line nest .terminator [] closed := by
  obtain ⟨recent, blocks⟩ := nest
  cases blocks with
  | nil => cases closes
  | cons block outer =>
      obtain ⟨opening, number, before⟩ := block
      cases opening with
      | choice label =>
          simp only [close?, Option.ite_none_right_eq_some, Option.some.injEq] at closes
          obtain ⟨starts, rfl⟩ := closes
          exact .close starts
      | elsePart condition thenBody =>
          simp only [close?, Option.ite_none_right_eq_some, Option.some.injEq] at closes
          obtain ⟨starts, rfl⟩ := closes
          exact .close starts
      | thenPart condition =>
          simp only [close?] at closes
          split at closes
          · rename_i starts
            cases closes
            exact .turn starts
          · simp only [Option.ite_none_right_eq_some, Option.some.injEq] at closes
            obtain ⟨starts, rfl⟩ := closes
            exact .close starts

theorem moves_of_step {nest next : Nest} {line : Line} {warnings : List Warning}
    (stepped : nest.step line = .ok (next, warnings)) :
    Moves line nest (nest.fate line) warnings next := by
  unfold step at stepped
  cases closes : nest.close? line with
  | some closed =>
      rw [closes] at stepped
      cases stepped
      simp only [fate, closes]
      exact moves_of_close? closes
  | none =>
      rw [closes] at stepped
      cases read : line.read with
      | error error =>
          rw [read] at stepped
          cases stepped
      | ok reading =>
          rw [read] at stepped
          cases stepped
          simp only [fate, closes, Line.head?_of_read read]
          cases gives : reading.head with
          | some head => exact .add read gives
          | none =>
              cases Line.read_cases read with
              | inl started =>
                  obtain ⟨head, also⟩ := started.head
                  rw [gives] at also
                  cases also
              | inr passed =>
                  obtain ⟨notice, rfl, skips⟩ := passed.skipped
                  refine .skip rfl ?_
                  cases notice with
                  | stray keyword => rfl
                  | unknown text => rfl
                  | _ => cases skips

theorem reads_of_readLines {nest : Nest} {lines : List Line} {body : Block}
    (read : (nest.readLines lines).2 = .ok body) :
    (nest.account lines).map Entry.line = lines ∧
      Reads nest (nest.account lines) (nest.readLines lines).1 body := by
  induction lines generalizing nest with
  | nil =>
      cases read
      exact ⟨rfl, .finish nest⟩
  | cons line rest ih =>
      rw [readLines] at read ⊢
      rw [account]
      cases stepped : nest.step line with
      | error error =>
          rw [stepped] at read
          cases read
      | ok result =>
          obtain ⟨next, warnings⟩ := result
          rw [stepped] at read
          obtain ⟨lines, later⟩ := ih read
          exact ⟨congrArg (line :: ·) lines, .step (moves_of_step stepped) later⟩

end Nest

namespace Line

theorem trails_of_map {line : Line} {α : Type} {result : Except ParseError α}
    {make : α → Statement.Head} {reading : Reading} {head : Statement.Head}
    (other : ∀ value condition, make value ≠ .branch condition)
    (read : result.map (fun value => statement (make value)) = .ok reading)
    (gives : reading.head = some head) :
    (Entry.mk line (.statement head)).trails = false ∧ reading.warnings = [] := by
  cases result with
  | error error => cases read
  | ok value =>
      cases read
      cases gives
      refine ⟨?_, rfl⟩
      cases made : make value with
      | branch condition => exact absurd made (other value condition)
      | _ => rfl

theorem length_of_conditionArgument {line : Line} {condition : Condition}
    {ignored : List (List Char)} (read : line.conditionArgument = .ok (condition, ignored)) :
    ((line.words.drop 1).dropWhile (!isThen ·)).length = ignored.length + 1 := by
  simp only [conditionArgument] at read
  split at read
  · cases read
  · rename_i word behind rest
    rw [rest, List.length_cons]
    cases parsed : Condition.parseAt line.number
        (unwords ((line.words.drop 1).takeWhile (!isThen ·))) with
    | error error =>
        rw [parsed] at read
        cases read
    | ok found =>
        rw [parsed] at read
        cases read
        rfl

theorem warnings_of_read {line : Line} {reading : Reading} {head : Statement.Head}
    (read : line.read = .ok reading) (gives : reading.head = some head) :
    (Entry.mk line (.statement head)).trails = false ∧ reading.warnings = [] ∨
    (Entry.mk line (.statement head)).trails = true ∧
      ∃ text, reading.warnings = [line.warn (.afterThen text)] := by
  unfold Line.read at read
  cases spelled : Keyword.ofWord? (line.words.headD []) with
  | none =>
      rw [spelled] at read
      cases read
      cases gives
  | some keyword =>
      rw [spelled] at read
      cases keyword with
      | scene | otherwise | done =>
          cases read
          cases gives
      | branch =>
          cases result : line.conditionArgument with
          | error error =>
              rw [result] at read
              cases read
          | ok value =>
              obtain ⟨condition, ignored⟩ := value
              rw [result] at read
              cases read
              cases gives
              have size := length_of_conditionArgument result
              cases ignored with
              | nil => exact Or.inl ⟨decide_eq_false (by rw [size]; decide), rfl⟩
              | cons word rest =>
                  refine Or.inr ⟨decide_eq_true ?_, _, rfl⟩
                  rw [size, List.length_cons]
                  omega
      | _ => exact Or.inl (trails_of_map (fun _ _ same => by cases same) read gives)

end Line

namespace Nest

theorem length_finish (recent : List Statement) (blocks : List OpenBlock) :
    (finish recent blocks).1.length = blocks.length ∧
      ∀ warning ∈ (finish recent blocks).1, ∃ keyword, warning.notice = .missingEnd keyword := by
  induction blocks generalizing recent with
  | nil => exact ⟨rfl, List.forall_mem_nil _⟩
  | cons block outer ih =>
      rw [finish]
      obtain ⟨count, all⟩ := ih (block.opening.close recent.reverse :: block.before)
      exact ⟨congrArg (· + 1) count, List.forall_mem_cons.2 ⟨⟨_, rfl⟩, all⟩⟩

theorem heads_turned (recent before : List Statement) (condition : Condition) (number : Nat)
    (outer : List OpenBlock) :
    heads ⟨[], ⟨.elsePart condition recent.reverse, number, before⟩ :: outer⟩ =
      heads ⟨recent, ⟨.thenPart condition, number, before⟩ :: outer⟩ := by
  simp [heads, OpenBlock.heads, Opening.heads, Block.heads, Block.visits]

section

variable {line : Line} {nest next : Nest} {fate : Fate} {entries : List Entry}
  {warnings : List Warning} {body : Block}

theorem Moves.sound (moves : Moves line nest fate warnings next) (plain : line.isHeader = false) :
    (Entry.mk line fate).Sound := by
  have other : ∀ fate, fate ≠ Fate.header → (fate = .header ↔ line.isHeader = true) := by
    intro fate differ
    rw [plain]
    exact ⟨fun same => absurd same differ, fun heads => by cases heads⟩
  cases moves with
  | turn starts => exact ⟨other _ nofun, nofun, fun _ => Or.inl starts⟩
  | close starts => exact ⟨other _ nofun, nofun, fun _ => Or.inr starts⟩
  | skip own skips => exact ⟨other _ nofun, nofun, nofun⟩
  | add read gives =>
      refine ⟨other _ nofun, ?_, nofun⟩
      rintro head ⟨⟩
      exact (Line.head?_of_read read).trans gives

theorem Reads.sound (reads : Reads nest entries warnings body)
    (plain : ∀ entry ∈ entries, entry.line.isHeader = false) :
    ∀ entry ∈ entries, entry.Sound := by
  induction reads with
  | finish nest => exact List.forall_mem_nil _
  | step moves later ih =>
      obtain ⟨first, rest⟩ := List.forall_mem_cons.1 plain
      exact List.forall_mem_cons.2 ⟨moves.sound first, ih rest⟩

theorem Moves.heads (moves : Moves line nest fate warnings next) :
    next.heads = nest.heads ++ (Entry.mk line fate).head?.toList := by
  cases moves with
  | turn starts =>
      rw [heads_turned]
      exact (List.append_nil _).symm
  | close starts =>
      rw [heads_closed]
      exact (List.append_nil _).symm
  | add read gives => exact heads_add nest line _
  | skip own skips => exact (List.append_nil _).symm

theorem Reads.heads (reads : Reads nest entries warnings body) :
    nest.heads ++ entries.filterMap Entry.head? = Block.heads body := by
  induction reads with
  | finish nest => rw [heads_finish, List.filterMap_nil, List.append_nil]
  | @step line _ _ fate _ _ entries _ moves later ih =>
      rw [← ih, moves.heads, List.filterMap_cons, List.append_assoc]
      cases (Entry.mk line fate).head? <;> rfl

theorem Reads.skips (reads : Reads nest entries warnings body) :
    (warnings.filter Warning.isSkip).map Warning.line =
      (entries.filter Entry.isSkipped).map fun entry => entry.line.number := by
  induction reads with
  | finish nest =>
      rw [List.filter_nil, List.map_nil, List.map_eq_nil_iff, List.filter_eq_nil_iff]
      intro warning member
      obtain ⟨keyword, notice⟩ := (length_finish nest.recent nest.blocks).2 warning member
      simp [Warning.isSkip, notice]
  | step moves later ih =>
      rw [List.filter_append, List.map_append, ih, List.filter_cons]
      cases moves with
      | turn starts => rfl
      | close starts => rfl
      | add read gives =>
          rcases Line.warnings_of_read read gives with ⟨-, silent⟩ | ⟨-, text, remark⟩
          · rw [silent]
            rfl
          · rw [remark]
            rfl
      | skip own skips =>
          rw [List.filter_cons_of_pos skips]
          exact congrArg (· :: _) own

theorem Reads.trails (reads : Reads nest entries warnings body) :
    warnings.countP Warning.isAfterThen = entries.countP Entry.trails := by
  induction reads with
  | finish nest =>
      rw [List.countP_nil, List.countP_eq_zero]
      intro warning member
      obtain ⟨keyword, notice⟩ := (length_finish nest.recent nest.blocks).2 warning member
      simp [Warning.isAfterThen, notice]
  | step moves later ih =>
      rw [List.countP_append, ih, List.countP_cons, Nat.add_comm]
      congr 1
      cases moves with
      | turn starts => rfl
      | close starts => rfl
      | add read gives =>
          rcases Line.warnings_of_read read gives with ⟨without, silent⟩ | ⟨behind, text, remark⟩
          · rw [silent, without]
            rfl
          · rw [remark, behind]
            rfl
      | @skip _ warning own skips =>
          obtain ⟨number, notice⟩ := warning
          cases notice with
          | afterThen text => cases skips
          | _ => rfl

end

end Nest

end SceneScript
