import SceneScript.Proofs.Script.Faults

/-!
# No statement is lost

The statements of a scene in the order in which a reader meets them, each before those inside it,
are the statements of its lines in their order. Reading keeps this order in the nest of open blocks:
the statements before an open block, the head of the block, what is inside. Closing a block,
starting its else part and reaching the end of the scene all leave the order as it is, so it holds
for any lines, whether or not their blocks are balanced.
-/

namespace SceneScript

open SceneScript.Text

set_option autoImplicit false

namespace Block

/-- The heads of all statements of a block, each before those inside it, then before else. -/
def heads (block : Block) : List Statement.Head :=
  (visits block).map fun visit => visit.statement.head

theorem heads_cons (statement : Statement) (rest : Block) :
    heads (statement :: rest) = heads [statement] ++ heads rest := by
  simp [heads, visits]

theorem heads_append (block others : Block) :
    heads (block ++ others) = heads block ++ heads others := by
  induction block with
  | nil => rfl
  | cons statement rest ih =>
      rw [List.cons_append, heads_cons, ih, heads_cons statement rest, List.append_assoc]

end Block

def Statement.Head.goLine? : Statement.Head → Option Nat
  | go _ line => some line
  | _ => none

/-- What has been read of a block that is open: its head, and the then part if it is behind that. -/
def Opening.heads : Opening → List Statement.Head
  | choice label => [.choice label]
  | thenPart condition => [.branch condition]
  | elsePart condition thenBody => .branch condition :: Block.heads thenBody

theorem Opening.heads_close (opening : Opening) (body : Block) :
    Block.heads [opening.close body] = opening.heads ++ Block.heads body := by
  cases opening <;> simp [close, heads, Block.heads, Block.visits, Statement.innerVisits,
    Statement.head]

def OpenBlock.heads (block : OpenBlock) : List Statement.Head :=
  Block.heads block.before.reverse ++ block.opening.heads

namespace Nest

def heads (nest : Nest) : List Statement.Head :=
  nest.blocks.reverse.flatMap OpenBlock.heads ++ Block.heads nest.recent.reverse

theorem heads_push (nest : Nest) (statement : Statement) :
    (nest.push statement).heads = nest.heads ++ Block.heads [statement] := by
  simp [heads, push, Block.heads_append]

theorem heads_enter (nest : Nest) (opening : Opening) (line : Nat) :
    (nest.enter opening line).heads = nest.heads ++ opening.heads := by
  simp [heads, enter, OpenBlock.heads, Block.heads, Block.visits]

theorem heads_add (nest : Nest) (line : Line) (head : Statement.Head) :
    (nest.add line head).heads = nest.heads ++ [head] := by
  cases head with
  | act action => exact nest.heads_push (.act action)
  | go target number => exact nest.heads_push (.go target number)
  | choice label => exact nest.heads_enter (.choice label) line.number
  | branch condition => exact nest.heads_enter (.thenPart condition) line.number

theorem heads_closed (recent : List Statement) (block : OpenBlock) (outer : List OpenBlock) :
    heads ⟨block.opening.close recent.reverse :: block.before, outer⟩ =
      heads ⟨recent, block :: outer⟩ := by
  simp [heads, OpenBlock.heads, Block.heads_append, Opening.heads_close]

theorem heads_close? {nest closed : Nest} {line : Line} (closes : nest.close? line = some closed) :
    closed.heads = nest.heads := by
  obtain ⟨recent, blocks⟩ := nest
  cases blocks with
  | nil => cases closes
  | cons block outer =>
      have whole := heads_closed recent block outer
      obtain ⟨opening, number, before⟩ := block
      cases opening with
      | choice label =>
          simp only [close?, Option.ite_none_right_eq_some] at closes
          rw [← Option.some.inj closes.2]
          exact whole
      | elsePart condition thenBody =>
          simp only [close?, Option.ite_none_right_eq_some] at closes
          rw [← Option.some.inj closes.2]
          exact whole
      | thenPart condition =>
          simp only [close?] at closes
          split at closes
          · rw [← Option.some.inj closes]
            simp [heads, OpenBlock.heads, Opening.heads, Block.heads, Block.visits]
          · split at closes
            · rw [← Option.some.inj closes]
              exact whole
            · cases closes

theorem heads_finish (recent : List Statement) (blocks : List OpenBlock) :
    Block.heads (finish recent blocks).2 = heads ⟨recent, blocks⟩ := by
  induction blocks generalizing recent with
  | nil => rfl
  | cons block outer ih =>
      rw [← heads_closed]
      exact ih _

end Nest

namespace Line

/-- The head of the statement that a line gives by itself. -/
def head? (line : Line) : Option Statement.Head :=
  line.read.toOption.bind Reading.head

theorem head?_of_read {line : Line} {reading : Reading} (read : line.read = .ok reading) :
    line.head? = reading.head := by
  rw [head?, read]
  rfl

theorem isSome_head? {line : Line} {reading : Reading} (read : line.read = .ok reading) :
    line.head?.isSome = line.isStatement := by
  rw [head?_of_read read]
  rcases read_cases read with started | passed
  · obtain ⟨head, gives⟩ := started.head
    rw [gives, started.statement]
    rfl
  · obtain ⟨notice, rfl, -⟩ := passed.skipped
    exact passed.statement.symm

theorem go_of_head? {line : Line} {target : String} {number : Nat}
    (gives : line.head? = some (.go target number)) :
    number = line.number ∧ line.keyword? = some .go ∧ line.argument? = some target.toList := by
  cases read : line.read with
  | error error =>
      rw [head?, read] at gives
      cases gives
  | ok reading =>
      rw [head?_of_read read] at gives
      rcases read_cases read with started | passed
      · exact started.go target number gives
      · obtain ⟨notice, rfl, -⟩ := passed.skipped
        cases gives

end Line

namespace Nest

/-- One line adds the statement that it gives by itself, or nothing. -/
theorem heads_step {nest next : Nest} {line : Line} {warnings : List Warning}
    (stepped : nest.step line = .ok (next, warnings)) :
    (∃ reading, line.read = .ok reading) ∧ next.heads = nest.heads ++ line.head?.toList := by
  have succeeds := nest.ofResult?_step line
  rw [stepped, ParseError.ofResult?_ok] at succeeds
  cases read : line.read with
  | error error =>
      rw [read] at succeeds
      cases succeeds
  | ok reading =>
      refine ⟨⟨reading, rfl⟩, ?_⟩
      cases closes : nest.close? line with
      | some closed =>
          have silent := (Line.isSome_head? read).trans (isStatement_of_close? closes)
          rw [step, closes] at stepped
          cases stepped
          have nothing : line.head? = none := by simpa using silent
          rw [nothing, heads_close? closes]
          simp
      | none =>
          rw [step, closes, read] at stepped
          cases stepped
          rw [Line.head?_of_read read]
          cases reading.head with
          | none => simp
          | some head => exact nest.heads_add line head

theorem heads_readLines {nest : Nest} {lines : List Line} {body : Block}
    (read : (nest.readLines lines).2 = .ok body) :
    (∀ line ∈ lines, ∃ reading, line.read = .ok reading) ∧
      Block.heads body = nest.heads ++ lines.filterMap Line.head? := by
  induction lines generalizing nest with
  | nil =>
      cases read
      refine ⟨by simp, ?_⟩
      rw [heads_finish]
      simp
  | cons line rest ih =>
      rw [readLines] at read
      cases stepped : nest.step line with
      | error error =>
          rw [stepped] at read
          cases read
      | ok result =>
          obtain ⟨next, warnings⟩ := result
          rw [stepped] at read
          obtain ⟨each, order⟩ := ih read
          obtain ⟨here, added⟩ := heads_step stepped
          refine ⟨List.forall_mem_cons.2 ⟨here, each⟩, ?_⟩
          rw [order, added, List.append_assoc, List.filterMap_cons]
          cases line.head? <;> rfl

end Nest

namespace Line

theorem map_read_filter {lines : List Line}
    (each : ∀ line ∈ lines, ∃ reading, line.read = .ok reading) :
    (lines.filter isStatement).map (fun line => line.read.map Reading.head) =
      (lines.filterMap head?).map fun head => .ok (some head) := by
  induction lines with
  | nil => rfl
  | cons line rest ih =>
      obtain ⟨⟨reading, read⟩, later⟩ := List.forall_mem_cons.1 each
      have gives := isSome_head? read
      rw [List.filterMap_cons, List.filter_cons, ← gives]
      cases head : line.head? with
      | none => exact ih later
      | some head =>
          rw [head?_of_read read] at head
          rw [Option.isSome_some, if_pos rfl, List.map_cons, List.map_cons, ih later, read]
          simp only [Except.map, head]

theorem ascending_goLines {lines : List Line}
    (ascending : lines.Pairwise fun line later => line.number < later.number) :
    ((lines.filterMap head?).filterMap Statement.Head.goLine?).Pairwise (· < ·) := by
  have number : ∀ (line : Line) (number : Nat),
      (line.head?.bind Statement.Head.goLine?) = some number → number = line.number := by
    intro line number gives
    obtain ⟨head, found, carries⟩ := Option.bind_eq_some_iff.1 gives
    cases head with
    | go target own =>
        cases carries
        exact (go_of_head? found).1
    | _ => cases carries
  rw [List.filterMap_filterMap, List.pairwise_filterMap]
  refine ascending.imp ?_
  intro line later below first found second reached
  rw [number line first found, number later second reached]
  exact below

end Line

namespace Section

theorem read_ok {part : Section} {scene : Scene} (read : part.read.result = .ok scene) :
    part.header.argument? = some scene.id.toList ∧ scene.line = part.header.number ∧
      (∀ line ∈ part.body, ∃ reading, line.read = .ok reading) ∧
      Block.heads scene.body = part.body.filterMap Line.head? := by
  unfold Section.read at read
  split at read
  · cases read
  · rename_i id second
    cases body : (Nest.start.readLines part.body).2 with
    | error error =>
        simp only [body] at read
        cases read
    | ok block =>
        simp only [body] at read
        cases read
        obtain ⟨each, order⟩ := Nest.heads_readLines body
        refine ⟨?_, rfl, each, order⟩
        rw [second, String.toList_ofList]

end Section

namespace Program

/-- A scene of a program comes from the last section of its id. -/
theorem exists_section {text : String} {program : Program}
    (parsed : (parse text).result = .ok program) {scene : Scene} (member : scene ∈ program.scenes) :
    ∃ front part behind,
      (Section.split (Line.scan text.toList)).2 = front ++ part :: behind ∧
      part.read.result = .ok scene ∧
      ∀ later ∈ behind, ∃ other, later.read.result = .ok other ∧ other.id ≠ scene.id := by
  obtain ⟨scenes, read, rfl⟩ := exists_scenes parsed
  rcases mem_extend.1 member with ⟨front, behind, split, last⟩ | ⟨none, -⟩
  · rw [Section.scenes_eq_ok, split, List.map_append, List.map_cons] at read
    obtain ⟨first, others, cut, before, after⟩ := List.map_eq_append_iff.1 read
    obtain ⟨part, rest, tail, here, later⟩ := List.map_eq_cons_iff.1 after
    refine ⟨first, part, rest, by rw [cut, tail], here, ?_⟩
    intro next inRest
    have listed := List.mem_map_of_mem (f := fun part : Section => part.read.result) inRest
    rw [later] at listed
    obtain ⟨other, inBehind, gives⟩ := List.mem_map.1 listed
    exact ⟨other, gives.symm, last other inBehind⟩
  · simp [empty] at none

/--
Every scene of a parsed script stands between the last header of its id and the next header. Its
statements, each before those inside it, are the statements that the lines there give one by one, in
their order, the other lines being dropped. The scene has the number of its header, and every `go`
the number of its own line in the text, so that these numbers ascend.
-/
theorem heads_parse {text : String} {program : Program}
    (parsed : (parse text).result = .ok program) {scene : Scene} (member : scene ∈ program.scenes) :
    ∃ front header body rest,
      Line.scan text.toList = front ++ header :: (body ++ rest) ∧
      header.isHeader = true ∧ header.argument? = some scene.id.toList ∧
      (∀ line ∈ body, line.isHeader = false) ∧
      (∀ next, rest.head? = some next → next.isHeader = true) ∧
      (∀ later ∈ rest, later.isHeader = true → later.argument? ≠ some scene.id.toList) ∧
      scene.line = header.number ∧
      (body.filter Line.isStatement).map (fun line => line.read.map Line.Reading.head) =
        (Block.heads scene.body).map (fun head => .ok (some head)) ∧
      ((Block.heads scene.body).filterMap Statement.Head.goLine?).Pairwise (· < ·) ∧
      ∀ target number, .go target number ∈ Block.heads scene.body →
        ∃ line ∈ body, line.number = number ∧ line.keyword? = some .go ∧
          line.argument? = some target.toList ∧ 1 ≤ number ∧
          ∃ raw, (Text.lines text.toList)[number - 1]? = some raw ∧
            Line.ofRaw? raw number = some line := by
  obtain ⟨front, part, behind, split, read, last⟩ := exists_section parsed member
  obtain ⟨named, numbered, each, order⟩ := Section.read_ok read
  have proper : ∀ other ∈ front ++ part :: behind, other.Proper := by
    rw [← split]
    exact Section.proper_of_mem_split
  have own : part.Proper := proper part (by simp)
  have others : ∀ other ∈ behind, other.Proper := by
    intro other inside
    exact proper other (by simp [inside])
  have whole : Line.scan text.toList =
      ((Section.split (Line.scan text.toList)).1 ++ front.flatMap Section.lines) ++
        part.header :: (part.body ++ behind.flatMap Section.lines) := by
    have cut := Section.append_lines_split (Line.scan text.toList)
    rw [split, List.flatMap_append, List.flatMap_cons, ← List.append_assoc] at cut
    exact cut.symm
  have scanned : ∀ line ∈ part.body, line ∈ Line.scan text.toList := by
    intro line inside
    rw [whole]
    simp [inside]
  refine ⟨_, part.header, part.body, behind.flatMap Section.lines, whole, own.header, named,
    own.body, ?_, ?_, numbered, ?_, ?_, ?_⟩
  · intro next first
    exact Section.isHeader_of_head? others first
  · intro later inside heads same
    obtain ⟨next, inBehind, rfl⟩ := Section.exists_section_of_header others inside heads
    obtain ⟨other, gives, differ⟩ := last next inBehind
    rw [(Section.read_ok gives).1, Option.some.injEq, String.toList_inj] at same
    exact differ same
  · rw [order]
    exact Line.map_read_filter each
  · rw [order]
    apply Line.ascending_goLines
    have ascending := Line.ascending_scan text.toList
    rw [whole] at ascending
    exact (List.pairwise_append.1 (List.pairwise_cons.1 (List.pairwise_append.1 ascending).2.1).2).1
  · intro target number inside
    rw [order] at inside
    obtain ⟨line, inBody, gives⟩ := List.mem_filterMap.1 inside
    obtain ⟨rfl, spelled, word⟩ := Line.go_of_head? gives
    obtain ⟨positive, raw, placed, kept⟩ := Line.mem_scan.1 (scanned line inBody)
    exact ⟨line, inBody, rfl, spelled, word, positive, raw, placed, kept⟩

/-- A script with a scene that is defined twice, a choice that is not closed and a stray `else`. -/
def lantern : String :=
  "go out\nscene hall\nprint \"dark\"\nscene yard\nchoice \"light\"\ngo hall\nelse\n" ++
    "if lamp then\ngo yard\nendless\nscene hall\nif oil THEN burn\nelsewhere\ngo yard"

def lanternYard : Scene :=
  ⟨"yard", 4, [.choice "light" [.go "hall" 6, .branch (.ident "lamp") [.go "yard" 9] []]]⟩

theorem heads_parse_lantern :
    ∃ program, (parse lantern).result = .ok program ∧ lanternYard ∈ program.scenes ∧
      ∃ front header body rest,
        Line.scan lantern.toList = front ++ header :: (body ++ rest) ∧ header.number = 4 ∧
        (body.filter Line.isStatement).map (fun line => line.read.map Line.Reading.head) =
          [.ok (some (.choice "light")), .ok (some (.go "hall" 6)),
            .ok (some (.branch (.ident "lamp"))), .ok (some (.go "yard" 9))] := by
  have scenes : Section.scenes (Section.split (Line.scan lantern.toList)).2 =
      .ok [⟨"hall", 2, [.act (.print "dark")]⟩, lanternYard,
        ⟨"hall", 11, [.branch (.ident "oil") [] [.go "yard" 14]]⟩] := by
    decide +kernel
  have parsed := result_parse lantern
  rw [scenes] at parsed
  have member : lanternYard ∈ (ofScenes [⟨"hall", 2, [.act (.print "dark")]⟩, lanternYard,
      ⟨"hall", 11, [.branch (.ident "oil") [] [.go "yard" 14]]⟩]).scenes := by
    decide +kernel
  obtain ⟨front, header, body, rest, scanned, -, -, -, -, -, numbered, order, -⟩ :=
    heads_parse parsed member
  exact ⟨_, parsed, member, front, header, body, rest, scanned, numbered.symm, order⟩

end Program

end SceneScript
