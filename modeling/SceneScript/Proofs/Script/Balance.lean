import SceneScript.Proofs.Script.Fates
import SceneScript.Proofs.Script.Headers

/-!
# Blocks balance

Every block that a line opens is closed by a line or reported at the end of its scene, so lines that
close blocks and reports together are as many as the choices and branches. Lines that start an else
part are at most as many as the branches, and at least as many as the branches whose else part has
something in it. The counts run along with the reading of a scene: a block that is open counts as
opened and not yet closed, and an else part that is open as one that may still get a statement.
-/

namespace SceneScript

open SceneScript.Text

set_option autoImplicit false

theorem Line.startsWith_end_of_else {line : Line} (starts : line.startsWith "else" = true) :
    line.startsWith "end" = false :=
  startsWith_of_differs starts (by decide) (by decide)

namespace Statement

def isBranch : Statement → Bool
  | branch _ _ _ => true
  | _ => false

/-- A branch whose else part has something in it. -/
def hasElse : Statement → Bool
  | branch _ _ elseBody => !elseBody.isEmpty
  | _ => false

def Head.opens : Head → Bool
  | choice _ | branch _ => true
  | _ => false

def Head.isBranch : Head → Bool
  | branch _ => true
  | _ => false

end Statement

namespace Block

/-- The statements of a block at every depth, each before those inside it. -/
def statements (block : Block) : List Statement :=
  (visits block).map Visit.statement

theorem map_head_statements (block : Block) :
    (statements block).map Statement.head = heads block := by
  rw [statements, List.map_map]
  rfl

theorem countP_opens (block : Block) :
    (heads block).countP Statement.Head.opens =
      (statements block).countP Statement.isChoice +
        (statements block).countP Statement.isBranch := by
  rw [← map_head_statements]
  induction statements block with
  | nil => rfl
  | cons statement rest ih =>
      rw [List.map_cons, List.countP_cons, ih, List.countP_cons, List.countP_cons]
      cases statement <;>
        simp [Statement.head, Statement.Head.opens, Statement.isChoice, Statement.isBranch] <;>
        omega

theorem countP_isBranch (block : Block) :
    (heads block).countP Statement.Head.isBranch =
      (statements block).countP Statement.isBranch := by
  rw [← map_head_statements, List.countP_map]
  congr 1
  funext statement
  cases statement <;> rfl

/-- The branches of a block, at every depth, whose else part has something in it. -/
def elses (block : Block) : Nat :=
  (statements block).countP Statement.hasElse

theorem elses_cons (statement : Statement) (rest : Block) :
    elses (statement :: rest) = elses [statement] + elses rest := by
  simp [elses, statements, visits, List.countP_cons]
  omega

theorem elses_append (block others : Block) :
    elses (block ++ others) = elses block + elses others := by
  induction block with
  | nil => simp [elses, statements, visits]
  | cons statement rest ih =>
      rw [List.cons_append, elses_cons, ih, elses_cons statement rest, Nat.add_assoc]

theorem elses_reverse (block : Block) : elses block.reverse = elses block := by
  induction block with
  | nil => rfl
  | cons statement rest ih =>
      rw [List.reverse_cons, elses_append, ih, elses_cons statement rest, Nat.add_comm]

end Block

/-- The branches of a block that is open, the open else part counted as one with something in it. -/
def Opening.elses : Opening → Nat
  | choice _ => 0
  | thenPart _ => 0
  | elsePart _ thenBody => 1 + Block.elses thenBody

def Opening.isThenPart : Opening → Bool
  | thenPart _ => true
  | _ => false

theorem Opening.elses_close (opening : Opening) (body : Block) :
    Block.elses [opening.close body] ≤ opening.elses + Block.elses body := by
  cases opening with
  | choice label =>
      simp [close, elses, Block.elses, Block.statements, Block.visits, Statement.innerVisits,
        Statement.hasElse]
  | thenPart condition =>
      simp [close, elses, Block.elses, Block.statements, Block.visits, Statement.innerVisits,
        Statement.hasElse]
  | elsePart condition thenBody =>
      simp [close, elses, Block.elses, Block.statements, Block.visits, Statement.innerVisits,
        List.countP_cons]
      split <;> omega

namespace Nest

/-- The branches read so far whose else part has something in it, or may still get something. -/
def elses (nest : Nest) : Nat :=
  nest.blocks.foldr (fun block outer => Block.elses block.before + block.opening.elses + outer) 0 +
    Block.elses nest.recent

/-- The open blocks that an `else` turns or an `end` closes: branches without an else part yet. -/
def thenParts (nest : Nest) : Nat :=
  nest.blocks.countP fun block => block.opening.isThenPart

/--
The counts along a scene. So many lines have closed a block and so many have started an else part,
and these blocks are open.
-/
structure Balanced (nest : Nest) (ends turns : Nat) : Prop where
  closed : ends + nest.blocks.length = nest.heads.countP Statement.Head.opens
  atMost : turns + nest.thenParts ≤ nest.heads.countP Statement.Head.isBranch
  atLeast : nest.elses ≤ turns

theorem balanced_start : Balanced start 0 0 :=
  ⟨rfl, Nat.le_refl _, Nat.le_refl _⟩

theorem elses_push (nest : Nest) (statement : Statement) :
    (nest.push statement).elses = nest.elses + Block.elses [statement] := by
  simp only [elses, push, Block.elses_cons _ nest.recent]
  omega

theorem elses_enter (nest : Nest) (opening : Opening) (number : Nat) :
    (nest.enter opening number).elses = nest.elses + opening.elses := by
  have none : Block.elses [] = 0 := rfl
  simp only [elses, enter, List.foldr_cons, none]
  omega

theorem thenParts_enter (nest : Nest) (opening : Opening) (number : Nat) :
    (nest.enter opening number).thenParts =
      nest.thenParts + if opening.isThenPart then 1 else 0 :=
  List.countP_cons

theorem thenParts_turned (recent before : List Statement) (condition : Condition) (number : Nat)
    (outer : List OpenBlock) :
    thenParts ⟨[], ⟨.elsePart condition recent.reverse, number, before⟩ :: outer⟩ + 1 =
      thenParts ⟨recent, ⟨.thenPart condition, number, before⟩ :: outer⟩ := by
  simp [thenParts, Opening.isThenPart]

theorem thenParts_closed (recent others : List Statement) (block : OpenBlock)
    (outer : List OpenBlock) : thenParts ⟨others, outer⟩ ≤ thenParts ⟨recent, block :: outer⟩ :=
  (List.sublist_cons_self block outer).countP_le

theorem elses_turned (recent before : List Statement) (condition : Condition) (number : Nat)
    (outer : List OpenBlock) :
    elses ⟨[], ⟨.elsePart condition recent.reverse, number, before⟩ :: outer⟩ =
      elses ⟨recent, ⟨.thenPart condition, number, before⟩ :: outer⟩ + 1 := by
  have none : Block.elses [] = 0 := rfl
  simp only [elses, List.foldr_cons, Opening.elses, Block.elses_reverse, none]
  omega

theorem elses_closed (recent : List Statement) (block : OpenBlock) (outer : List OpenBlock) :
    elses ⟨block.opening.close recent.reverse :: block.before, outer⟩ ≤
      elses ⟨recent, block :: outer⟩ := by
  have inside := block.opening.elses_close recent.reverse
  rw [Block.elses_reverse] at inside
  simp only [elses, List.foldr_cons, Block.elses_cons _ block.before]
  omega

theorem elses_finish (recent : List Statement) (blocks : List OpenBlock) :
    Block.elses (finish recent blocks).2 ≤ elses ⟨recent, blocks⟩ := by
  induction blocks generalizing recent with
  | nil => simp [finish, elses, Block.elses_reverse]
  | cons block outer ih => exact Nat.le_trans (ih _) (elses_closed recent block outer)

section

variable {nest : Nest} {ends turns : Nat}

theorem balanced_push (balanced : Balanced nest ends turns) {statement : Statement}
    {head : Statement.Head} (single : Block.heads [statement] = [head])
    (plain : head.opens = false) (other : head.isBranch = false)
    (bare : Block.elses [statement] = 0) : Balanced (nest.push statement) ends turns := by
  obtain ⟨closed, atMost, atLeast⟩ := balanced
  refine ⟨?_, ?_, ?_⟩
  · rw [heads_push, single, List.countP_append, ← closed, List.countP_singleton, plain]
    rfl
  · rw [heads_push, single, List.countP_append, List.countP_singleton, other]
    exact atMost
  · rw [elses_push, bare]
    exact atLeast

theorem balanced_enter (balanced : Balanced nest ends turns) (number : Nat) {opening : Opening}
    {head : Statement.Head} (single : opening.heads = [head]) (opens : head.opens = true)
    (kind : opening.isThenPart = head.isBranch) (fresh : opening.elses = 0) :
    Balanced (nest.enter opening number) ends turns := by
  obtain ⟨closed, atMost, atLeast⟩ := balanced
  refine ⟨?_, ?_, ?_⟩
  · rw [heads_enter, single, List.countP_append, ← closed, List.countP_singleton, opens]
    rfl
  · rw [heads_enter, single, List.countP_append, List.countP_singleton, thenParts_enter, kind]
    omega
  · rw [elses_enter, fresh]
    exact atLeast

theorem balanced_add (balanced : Balanced nest ends turns) (line : Line) (head : Statement.Head) :
    Balanced (nest.add line head) ends turns := by
  cases head with
  | act action => exact balanced_push balanced rfl rfl rfl rfl
  | go target number => exact balanced_push balanced rfl rfl rfl rfl
  | choice label => exact balanced_enter balanced line.number rfl rfl rfl rfl
  | branch condition => exact balanced_enter balanced line.number rfl rfl rfl rfl

theorem balanced_turn {recent before : List Statement} {condition : Condition} {number : Nat}
    {outer : List OpenBlock}
    (balanced : Balanced ⟨recent, ⟨.thenPart condition, number, before⟩ :: outer⟩ ends turns) :
    Balanced ⟨[], ⟨.elsePart condition recent.reverse, number, before⟩ :: outer⟩ ends
      (turns + 1) := by
  obtain ⟨closed, atMost, atLeast⟩ := balanced
  refine ⟨?_, ?_, ?_⟩
  · rw [heads_turned]
    exact closed
  · rw [heads_turned]
    have fewer := thenParts_turned recent before condition number outer
    omega
  · rw [elses_turned]
    omega

theorem balanced_close {recent : List Statement} {block : OpenBlock} {outer : List OpenBlock}
    (balanced : Balanced ⟨recent, block :: outer⟩ ends turns) :
    Balanced ⟨block.opening.close recent.reverse :: block.before, outer⟩ (ends + 1) turns := by
  obtain ⟨closed, atMost, atLeast⟩ := balanced
  refine ⟨?_, ?_, Nat.le_trans (elses_closed recent block outer) atLeast⟩
  · rw [heads_closed, ← closed, List.length_cons, Nat.add_assoc, Nat.add_comm 1]
  · rw [heads_closed]
    exact Nat.le_trans (Nat.add_le_add_left (thenParts_closed recent _ block outer) turns) atMost

end

section

variable {line : Line} {nest next : Nest} {fate : Fate} {entries : List Entry}
  {warnings : List Warning} {body : Block} {ends turns : Nat}

theorem Moves.balanced (moves : Moves line nest fate warnings next)
    (balanced : Balanced nest ends turns) :
    Balanced next (ends + [Entry.mk line fate].countP (Entry.ends "end"))
      (turns + [Entry.mk line fate].countP (Entry.ends "else")) := by
  cases moves with
  | turn starts =>
      have other := Line.startsWith_end_of_else starts
      simp only [List.countP_singleton, Entry.ends, starts, other]
      exact balanced_turn balanced
  | close starts =>
      have other : line.startsWith "else" = false := by
        refine Bool.eq_false_iff.2 fun also => ?_
        rw [Line.startsWith_end_of_else also] at starts
        cases starts
      simp only [List.countP_singleton, Entry.ends, starts, other]
      exact balanced_close balanced
  | add read gives => exact balanced_add balanced line _
  | skip own skips => exact balanced

theorem Moves.countP_isMissingEnd (moves : Moves line nest fate warnings next) :
    warnings.countP Warning.isMissingEnd = 0 := by
  cases moves with
  | turn starts => rfl
  | close starts => rfl
  | add read gives =>
      rcases Line.warnings_of_read read gives with ⟨-, silent⟩ | ⟨-, text, remark⟩
      · rw [silent]
        rfl
      · rw [remark]
        rfl
  | @skip _ warning own skips =>
      obtain ⟨number, notice⟩ := warning
      cases notice with
      | missingEnd keyword => cases skips
      | _ => rfl

theorem Reads.balanced (reads : Reads nest entries warnings body)
    (balanced : Balanced nest ends turns) :
    ends + entries.countP (Entry.ends "end") + warnings.countP Warning.isMissingEnd =
        (Block.heads body).countP Statement.Head.opens ∧
      turns + entries.countP (Entry.ends "else") ≤
        (Block.heads body).countP Statement.Head.isBranch ∧
      Block.elses body ≤ turns + entries.countP (Entry.ends "else") := by
  induction reads generalizing ends turns with
  | finish nest =>
      obtain ⟨closed, atMost, atLeast⟩ := balanced
      obtain ⟨count, all⟩ := length_finish nest.recent nest.blocks
      have missing : (Nest.finish nest.recent nest.blocks).1.countP Warning.isMissingEnd =
          nest.blocks.length := by
        rw [← count, List.countP_eq_length]
        intro warning member
        obtain ⟨keyword, notice⟩ := all warning member
        simp [Warning.isMissingEnd, notice]
      have fewer := elses_finish nest.recent nest.blocks
      rw [heads_finish, missing, List.countP_nil, List.countP_nil]
      exact ⟨closed, Nat.le_trans (Nat.le_add_right _ _) atMost, Nat.le_trans fewer atLeast⟩
  | @step line _ _ fate _ _ entries _ moves later ih =>
      have whole := ih (moves.balanced balanced)
      rw [List.countP_append, moves.countP_isMissingEnd, Nat.zero_add,
        show Entry.mk line fate :: entries = [Entry.mk line fate] ++ entries from rfl,
        List.countP_append, List.countP_append, ← Nat.add_assoc, ← Nat.add_assoc]
      exact whole

end

end Nest

end SceneScript
