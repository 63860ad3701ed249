import SceneScript.Proofs.Script.Rereading
import SceneScript.Proofs.Script.Sections

/-!
# Printed programs are read back

A block is read line by line into the nest of open blocks, and what its printed lines leave behind
is the block itself with the numbers of these lines. So a printed program is read without a warning
as the same program, up to line numbers.
-/

namespace SceneScript

open SceneScript.Text

set_option autoImplicit false

mutual

/-- The statement with the line numbers that it has when it is printed from the given line on. -/
def Statement.numbered (first : Nat) : Statement → Statement
  | .act action => .act action
  | .go target _ => .go target first
  | .choice label body => .choice label (Block.numbered (first + 1) body)
  | .branch condition thenBody elseBody =>
    .branch condition (Block.numbered (first + 1) thenBody)
      (Block.numbered (first + 1 + (Block.rows thenBody).length + 1) elseBody)

def Block.numbered (first : Nat) : List Statement → List Statement
  | [] => []
  | statement :: rest =>
    statement.numbered first :: Block.numbered (first + statement.rows.length) rest

end

def Scene.numbered (first : Nat) : List Scene → List Scene
  | [] => []
  | scene :: rest =>
    ⟨scene.id, first, Block.numbered (first + 1) scene.body⟩ ::
      numbered (first + scene.rows.length) rest

mutual

def Statement.unnumbered : Statement → Statement
  | .act action => .act action
  | .go target _ => .go target 0
  | .choice label body => .choice label (Block.unnumbered body)
  | .branch condition thenBody elseBody =>
    .branch condition (Block.unnumbered thenBody) (Block.unnumbered elseBody)

def Block.unnumbered : List Statement → List Statement
  | [] => []
  | statement :: rest => statement.unnumbered :: Block.unnumbered rest

end

def Scene.unnumbered (scene : Scene) : Scene where
  id := scene.id
  line := 0
  body := Block.unnumbered scene.body

mutual

theorem Statement.unnumbered_numbered (first : Nat) (statement : Statement) :
    (statement.numbered first).unnumbered = statement.unnumbered := by
  cases statement with
  | act action => rfl
  | go target line => rfl
  | choice label body =>
      rw [Statement.numbered, Statement.unnumbered, Statement.unnumbered, Block.unnumbered_numbered]
  | branch condition thenBody elseBody =>
      rw [Statement.numbered, Statement.unnumbered, Statement.unnumbered, Block.unnumbered_numbered,
        Block.unnumbered_numbered]

theorem Block.unnumbered_numbered (first : Nat) (block : List Statement) :
    Block.unnumbered (Block.numbered first block) = Block.unnumbered block := by
  cases block with
  | nil => rfl
  | cons statement rest =>
      rw [Block.numbered, Block.unnumbered, Block.unnumbered, Statement.unnumbered_numbered,
        Block.unnumbered_numbered]

end

theorem Scene.unnumbered_numbered (first : Nat) (scenes : List Scene) :
    (Scene.numbered first scenes).map Scene.unnumbered = scenes.map Scene.unnumbered := by
  induction scenes generalizing first with
  | nil => rfl
  | cons scene rest ih =>
      rw [Scene.numbered, List.map_cons, List.map_cons, ih]
      simp [Scene.unnumbered, Block.unnumbered_numbered]

theorem Scene.ids_numbered (first : Nat) (scenes : List Scene) :
    (Scene.numbered first scenes).map Scene.id = scenes.map Scene.id := by
  induction scenes generalizing first with
  | nil => rfl
  | cons scene rest ih =>
      rw [Scene.numbered, List.map_cons, List.map_cons, ih]

namespace Nest

theorem step_head (nest : Nest) (head : Statement.Head) (printable : head.Printable)
    (number : Nat) :
    nest.step ⟨number, head.row⟩ = .ok (nest.add ⟨number, head.row⟩ (head.placed number), []) := by
  obtain ⟨notElse, notEnd, -⟩ := head.startsWith_row number
  have stays : nest.close? ⟨number, head.row⟩ = none := by
    obtain ⟨recent, blocks⟩ := nest
    rcases blocks with - | ⟨⟨opening, line, before⟩, outer⟩
    · rfl
    · cases opening <;> simp [close?, notElse, notEnd]
  rw [step, stays, head.read_row printable]
  rfl

theorem step_otherwise (recent before : List Statement) (condition : Condition) (line number : Nat)
    (outer : List OpenBlock) :
    step ⟨recent, ⟨.thenPart condition, line, before⟩ :: outer⟩
        ⟨number, Keyword.otherwise.text.toList⟩ =
      .ok (⟨[], ⟨.elsePart condition recent.reverse, line, before⟩ :: outer⟩, []) := by
  rfl

theorem step_done {opening : Opening} (ends : ∀ condition, opening ≠ .thenPart condition)
    (recent before : List Statement) (line number : Nat) (outer : List OpenBlock) :
    step ⟨recent, ⟨opening, line, before⟩ :: outer⟩ ⟨number, Keyword.done.text.toList⟩ =
      .ok (⟨opening.close recent.reverse :: before, outer⟩, []) := by
  cases opening with
  | thenPart condition => exact absurd rfl (ends condition)
  | choice label => rfl
  | elsePart condition thenBody => rfl

theorem readLines_step {nest next : Nest} {line : Line} (stepped : nest.step line = .ok (next, []))
    (rest : List Line) : nest.readLines (line :: rest) = next.readLines rest := by
  simp [readLines, stepped]

end Nest

-- The lines of a body are read while its opening line keeps the statements before it, so the two
-- statements are about an arbitrary nest and arbitrary lines behind.
mutual

theorem Statement.readLines_rows {statement : Statement} (printable : statement.Printable)
    (nest : Nest) (first : Nat) (rest : List Line) :
    nest.readLines (Line.numberFrom first statement.rows ++ rest) =
      (nest.push (statement.numbered first)).readLines rest := by
  cases statement with
  | act action =>
      have head := nest.step_head (.act action) printable first
      exact Nest.readLines_step head rest
  | go target line =>
      have head := nest.step_head (.go target line) printable first
      exact Nest.readLines_step head rest
  | choice label body =>
      have head := nest.step_head (.choice label) trivial first
      rw [Statement.rows, Line.numberFrom, List.cons_append, Nest.readLines_step head,
        Line.numberFrom_append, List.append_assoc, Block.readLines_rows printable, Line.numberFrom,
        List.cons_append]
      refine (Nest.readLines_step (Nest.step_done (by simp) _ _ _ _ _) _).trans ?_
      simp [Statement.Head.placed, Nest.add, Nest.enter, Nest.push, Opening.close,
        Statement.numbered, Line.numberFrom]
  | branch condition thenBody elseBody =>
      obtain ⟨sound, thens, elses⟩ := printable
      have head := nest.step_head (.branch condition) sound first
      rw [Statement.rows, Line.numberFrom, List.cons_append, Nest.readLines_step head,
        Line.numberFrom_append, List.append_assoc, Block.readLines_rows thens, Line.numberFrom,
        List.cons_append]
      refine (Nest.readLines_step (Nest.step_otherwise _ _ _ _ _ _) _).trans ?_
      rw [Line.numberFrom_append, List.append_assoc, Block.readLines_rows elses, Line.numberFrom,
        List.cons_append]
      refine (Nest.readLines_step (Nest.step_done (by simp) _ _ _ _ _) _).trans ?_
      simp [Statement.Head.placed, Nest.add, Nest.enter, Nest.push, Opening.close,
        Statement.numbered, Line.numberFrom]

theorem Block.readLines_rows {block : List Statement} (printable : Block.Printable block)
    (nest : Nest) (first : Nat) (rest : List Line) :
    nest.readLines (Line.numberFrom first (Block.rows block) ++ rest) =
      Nest.readLines ⟨(Block.numbered first block).reverse ++ nest.recent, nest.blocks⟩ rest := by
  cases block with
  | nil => rfl
  | cons statement others =>
      rw [Block.rows, Line.numberFrom_append, List.append_assoc,
        Statement.readLines_rows printable.1, Block.readLines_rows printable.2]
      simp [Nest.push, Block.numbered]

end

theorem isHeader_of_startsWith {line : Line} (other : line.startsWith "scene" = false) :
    line.isHeader = false := by
  rw [Line.isHeader, other, Bool.false_and]

theorem Block.isHeader_rows {block : Block} (printable : Block.Printable block) :
    ∀ row ∈ Block.rows block, ∀ number, (Line.mk number row).isHeader = false := by
  apply Block.forall_rows
  · intro head _ number
    exact isHeader_of_startsWith (head.startsWith_row number).2.2
  · intro number
    rfl
  · intro number
    rfl
  · exact printable

namespace Section

def ofScenes (first : Nat) : List Scene → List Section
  | [] => []
  | scene :: rest =>
    ⟨⟨first, Keyword.scene.row scene.id.toList⟩,
        Line.numberFrom (first + 1) (Block.rows scene.body)⟩ ::
      ofScenes (first + scene.rows.length) rest

theorem split_body (first : Nat) {rows : List (List Char)}
    (inside : ∀ row ∈ rows, ∀ number, (Line.mk number row).isHeader = false) (rest : List Line) :
    split (Line.numberFrom first rows ++ rest) =
      (Line.numberFrom first rows ++ (split rest).1, (split rest).2) := by
  induction rows generalizing first with
  | nil => rfl
  | cons row rows ih =>
      have later := ih (first + 1) fun other member => inside other (by simp [member])
      have plain := inside row (by simp) first
      rw [split] at later ⊢
      rw [Line.numberFrom, List.cons_append, List.foldr_cons, later]
      simp [plain]

theorem split_scenes (first : Nat) {scenes : List Scene}
    (printable : ∀ scene ∈ scenes, scene.Printable) :
    split (Line.numberFrom first (scenes.flatMap Scene.rows)) = ([], ofScenes first scenes) := by
  induction scenes generalizing first with
  | nil => rfl
  | cons scene rest ih =>
      have inside := Block.isHeader_rows (printable scene (by simp)).2
      have later := ih (first + scene.rows.length)
        fun other member => printable other (by simp [member])
      have own : Line.numberFrom first scene.rows = ⟨first, Keyword.scene.row scene.id.toList⟩ ::
          Line.numberFrom (first + 1) (Block.rows scene.body) := rfl
      rw [List.flatMap_cons, Line.numberFrom_append, own, List.cons_append,
        split_header (isHeader_header _ _), split_body _ inside, later, ofScenes, List.append_nil]

theorem read_ofScene {scene : Scene} (printable : scene.Printable) (first : Nat) :
    Section.read ⟨⟨first, Keyword.scene.row scene.id.toList⟩,
        Line.numberFrom (first + 1) (Block.rows scene.body)⟩ =
      ⟨[], .ok ⟨scene.id, first, Block.numbered (first + 1) scene.body⟩⟩ := by
  have header : (Line.mk first (Keyword.scene.row scene.id.toList)).argument? =
      some scene.id.toList := by
    simp [Line.argument?, Line.words, words_row, printable.1.words_eq]
  have body : Nest.start.readLines (Line.numberFrom (first + 1) (Block.rows scene.body)) =
      ([], .ok (Block.numbered (first + 1) scene.body)) := by
    have lines := Block.readLines_rows printable.2 Nest.start (first + 1) []
    rw [List.append_nil] at lines
    rw [lines]
    simp [Nest.start, Nest.readLines, Nest.finish]
  simp only [Section.read, header, body]
  simp [Except.map]

end Section

namespace Program

theorem addSections_ofScenes (program : Program) {scenes : List Scene}
    (distinct : (program.ids ++ scenes.map Scene.id).Nodup)
    (printable : ∀ scene ∈ scenes, scene.Printable) (first : Nat) :
    program.addSections (Section.ofScenes first scenes) =
      ⟨[], .ok ((Scene.numbered first scenes).foldl
        (fun program scene => (program.insert scene).1) program)⟩ := by
  induction scenes generalizing program first with
  | nil => rfl
  | cons scene rest ih =>
      let next : Scene := ⟨scene.id, first, Block.numbered (first + 1) scene.body⟩
      have fresh : next.id ∉ program.ids := by
        intro member
        exact (List.nodup_append.1 distinct).2.2 _ member _ (by simp [next]) rfl
      have new : program.index[next.id]? = none := index_eq_none_iff.2 fresh
      have unreplaced : (program.insert next).2 = false := by
        rw [replaced_insert, new]
        rfl
      have apart : ((program.insert next).1.ids ++ rest.map Scene.id).Nodup := by
        simpa [ids, scenes_insert_of_new new, next] using distinct
      have later := ih _ apart (fun other member => printable other (by simp [member]))
        (first + scene.rows.length)
      have read := Section.read_ofScene (printable scene (by simp)) first
      simp only [next] at later unreplaced
      simp [Section.ofScenes, addSections, read, Scene.numbered, unreplaced, later]

theorem printable_ofScenes {scenes : List Scene} (distinct : (scenes.map Scene.id).Nodup)
    (each : ∀ scene ∈ scenes, scene.Printable) : (ofScenes scenes).Printable := by
  rwa [Program.Printable, scenes_ofScenes distinct]

/--
A printed program is read without a warning. What is read has the scenes of the program in their
order, each with the numbers of its printed lines in place of the numbers it had before, and an
index that finds the scenes at the same positions.
-/
theorem parse_print {program : Program} (printable : program.Printable) :
    ∃ reread : Program, parse program.print = ⟨[], .ok reread⟩ ∧
      reread.scenes.toList = Scene.numbered 1 program.scenes.toList ∧
      reread.scenes.map Scene.unnumbered = program.scenes.map Scene.unnumbered ∧
      ∀ id : String, reread.index[id]? = program.index[id]? := by
  have tidy : ∀ row ∈ program.scenes.toList.flatMap Scene.rows, Tidy row := by
    intro row member
    obtain ⟨scene, inside, own⟩ := List.mem_flatMap.1 member
    exact Scene.tidy_rows (printable scene inside) row own
  have distinct : ((Scene.numbered 1 program.scenes.toList).map Scene.id).Nodup := by
    rw [Scene.ids_numbered]
    exact program.nodup_ids
  have scenes := scenes_ofScenes distinct
  refine ⟨ofScenes (Scene.numbered 1 program.scenes.toList), ?_, scenes, ?_, ?_⟩
  · have added := addSections_ofScenes empty
      (by simpa [empty, ids] using program.nodup_ids) printable 1
    rw [parse, print, String.toList_ofList, Line.scan_unlines tidy, ofLines,
      Section.split_scenes 1 printable]
    simp [added, ofScenes]
  · apply Array.toList_inj.1
    rw [Array.toList_map, Array.toList_map, scenes, Scene.unnumbered_numbered]
  · apply index_eq_of_ids
    rw [ids, scenes, Scene.ids_numbered, ids]

/-- Two scenes with quotes, a comment sign and a line feed in a text, and with nested blocks. -/
def cellar : Program :=
  ofScenes [
    ⟨"Cellar_1", 0, [
      .act (.print "\"Down; down\", sie sagt:\n\tÖffne!"),
      .act (.style (.fontSize (-12))),
      .choice "end" [
        .act (.setFlag "lamp#on"),
        .branch (.disj (.conj (.has "key") (.neg (.ident "open_1"))) (.literal true))
          [.go "hall" 7] [.choice "" []]]]⟩,
    ⟨"hall", 3, []⟩]

theorem parse_print_cellar :
    cellar.Printable ∧ ∃ reread : Program, parse cellar.print = ⟨[], .ok reread⟩ ∧
      reread.scenes.map Scene.unnumbered = cellar.scenes.map Scene.unnumbered := by
  have printable : cellar.Printable := printable_ofScenes (by decide) (by decide)
  obtain ⟨reread, read, -, same, -⟩ := parse_print printable
  exact ⟨printable, reread, read, same⟩

end Program

end SceneScript
