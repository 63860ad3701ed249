import SceneScript.Proofs.Script.Balance

/-!
# Every line is accounted for

The account of a script puts one entry for each of its lines behind another: those before the first
header, which are skipped, and then section by section. `Accounted` says how such entries, the
warnings about them and the statements that they gave fit together. It holds of the lines outside
scenes and of every section that can be read, and of whatever is put together from these, so it
holds of a script that is parsed. Scenes that are defined again add the warnings that are left.
-/

namespace SceneScript

set_option autoImplicit false

namespace Warning

theorem isDuplicate_eq_not (warning : Warning) :
    warning.isDuplicate = !(warning.isSkip || warning.isMissingEnd || warning.isAfterThen) := by
  obtain ⟨line, notice⟩ := warning
  cases notice <;> rfl

theorem length_eq_kinds (warnings : List Warning) :
    warnings.length = warnings.countP isSkip + warnings.countP isMissingEnd +
      warnings.countP isAfterThen + warnings.countP isDuplicate := by
  induction warnings with
  | nil => rfl
  | cons warning rest ih =>
      rw [List.length_cons, ih]
      simp only [List.countP_cons]
      obtain ⟨line, notice⟩ := warning
      cases notice <;> simp [isSkip, isMissingEnd, isAfterThen, isDuplicate] <;> omega

end Warning

theorem Entry.count_number {entries : List Entry}
    (ascending : (entries.map Entry.line).Pairwise fun line later => line.number < later.number)
    (kind : Entry → Bool) {entry : Entry} (member : entry ∈ entries) :
    ((entries.filter kind).map fun entry => entry.line.number).count entry.line.number =
      if kind entry then 1 else 0 := by
  induction entries with
  | nil => cases member
  | cons first rest ih =>
      rw [List.map_cons, List.pairwise_cons] at ascending
      obtain ⟨below, later⟩ := ascending
      rw [List.filter_cons]
      rcases List.mem_cons.1 member with rfl | inside
      · have behind : ((rest.filter kind).map fun entry => entry.line.number).count
            entry.line.number = 0 := by
          rw [List.count_eq_zero, List.mem_map]
          rintro ⟨other, kept, same⟩
          have less := below other.line (List.mem_map_of_mem (List.mem_filter.1 kept).1)
          omega
        cases kind entry <;> simp [behind]
      · have less := below entry.line (List.mem_map_of_mem inside)
        rw [← ih later inside]
        cases kind first with
        | false => rfl
        | true => exact List.count_cons_of_ne (Nat.ne_of_lt less)

theorem Outcome.filter_remarks {α : Type} (outcome : Outcome α) {kind : Warning → Bool}
    (other : ∀ warning, kind warning = true → warning.isDuplicate = false) :
    outcome.remarks.filter kind = outcome.warnings.filter kind := by
  rw [remarks, List.filter_filter]
  apply List.filter_congr
  intro warning _
  cases fits : kind warning with
  | false => rfl
  | true => simp [other warning fits]

theorem Outcome.countP_remarks {α : Type} (outcome : Outcome α) {kind : Warning → Bool}
    (other : ∀ warning, kind warning = true → warning.isDuplicate = false) :
    outcome.remarks.countP kind = outcome.warnings.countP kind := by
  rw [List.countP_eq_length_filter, outcome.filter_remarks other, ← List.countP_eq_length_filter]

/-- Entries, the warnings about their lines, and the statements that these lines gave. -/
structure Accounted (entries : List Entry) (remarks : List Warning) (body : Block) : Prop where
  sound : ∀ entry ∈ entries, entry.Sound
  heads : entries.filterMap Entry.head? = Block.heads body
  skips : (remarks.filter Warning.isSkip).map Warning.line =
    (entries.filter Entry.isSkipped).map fun entry => entry.line.number
  trails : remarks.countP Warning.isAfterThen = entries.countP Entry.trails
  closed : entries.countP (Entry.ends "end") + remarks.countP Warning.isMissingEnd =
    (Block.heads body).countP Statement.Head.opens
  atMost : entries.countP (Entry.ends "else") ≤
    (Block.heads body).countP Statement.Head.isBranch
  atLeast : Block.elses body ≤ entries.countP (Entry.ends "else")

theorem accounted_nil : Accounted [] [] [] :=
  ⟨List.forall_mem_nil _, rfl, rfl, rfl, rfl, Nat.le_refl _, Nat.le_refl _⟩

theorem Accounted.append {entries others : List Entry} {remarks further : List Warning}
    {body rest : Block} (first : Accounted entries remarks body)
    (second : Accounted others further rest) :
    Accounted (entries ++ others) (remarks ++ further) (body ++ rest) where
  sound := List.forall_mem_append.2 ⟨first.sound, second.sound⟩
  heads := by
    rw [List.filterMap_append, first.heads, second.heads, Block.heads_append]
  skips := by
    rw [List.filter_append, List.map_append, first.skips, second.skips, List.filter_append,
      List.map_append]
  trails := by
    rw [List.countP_append, first.trails, second.trails, List.countP_append]
  closed := by
    have before := first.closed
    have behind := second.closed
    simp only [Block.heads_append, List.countP_append]
    omega
  atMost := by
    rw [Block.heads_append, List.countP_append, List.countP_append]
    exact Nat.add_le_add first.atMost second.atMost
  atLeast := by
    rw [Block.elses_append, List.countP_append]
    exact Nat.add_le_add first.atLeast second.atLeast

theorem accounted_outside {lines : List Line} (plain : ∀ line ∈ lines, line.isHeader = false) :
    Accounted (lines.map fun line => ⟨line, .skipped⟩)
      (lines.map fun line => line.warn (.outsideScene (String.ofList line.text))) [] := by
  induction lines with
  | nil => exact accounted_nil
  | cons line rest ih =>
      obtain ⟨first, later⟩ := List.forall_mem_cons.1 plain
      have here : Accounted [⟨line, .skipped⟩]
          [line.warn (.outsideScene (String.ofList line.text))] [] := by
        refine ⟨?_, rfl, rfl, rfl, rfl, Nat.le_refl _, Nat.le_refl _⟩
        rw [List.forall_mem_singleton]
        exact ⟨by simp [first], nofun, nofun⟩
      exact here.append (ih later)

namespace Section

def account (part : Section) : List Entry :=
  ⟨part.header, .header⟩ :: Nest.start.account part.body

theorem readLines_of_read {part : Section} {scene : Scene} (read : part.read.result = .ok scene) :
    Nest.start.readLines part.body = (part.read.warnings, .ok scene.body) := by
  unfold Section.read at read ⊢
  cases named : part.header.argument? with
  | none =>
      rw [named] at read
      cases read
  | some id =>
      rw [named] at read
      cases body : (Nest.start.readLines part.body).2 with
      | error error =>
          simp only [body] at read
          cases read
      | ok block =>
          simp only [body] at read
          cases read
          exact Prod.ext rfl body

theorem line_account {part : Section} {scene : Scene} (read : part.read.result = .ok scene) :
    part.account.map Entry.line = part.lines := by
  have whole := readLines_of_read read
  obtain ⟨lines, -⟩ := Nest.reads_of_readLines (congrArg Prod.snd whole)
  exact congrArg (part.header :: ·) lines

theorem accounted_read {part : Section} (proper : part.Proper) {scene : Scene}
    (read : part.read.result = .ok scene) :
    Accounted part.account part.read.warnings scene.body := by
  have whole := readLines_of_read read
  obtain ⟨lines, reads⟩ := Nest.reads_of_readLines (congrArg Prod.snd whole)
  rw [whole] at reads
  have plain : ∀ entry ∈ Nest.start.account part.body, entry.line.isHeader = false := by
    intro entry member
    apply proper.body
    rw [← lines]
    exact List.mem_map_of_mem member
  have header : Accounted [⟨part.header, .header⟩] [] [] := by
    refine ⟨?_, rfl, rfl, rfl, rfl, Nat.le_refl _, Nat.le_refl _⟩
    rw [List.forall_mem_singleton]
    exact ⟨by simp [proper.header], nofun, nofun⟩
  obtain ⟨closed, atMost, atLeast⟩ := reads.balanced Nest.balanced_start
  rw [Nat.zero_add] at closed atMost atLeast
  exact header.append ⟨reads.sound plain, reads.heads, reads.skips, reads.trails, closed, atMost,
    atLeast⟩

theorem scenes_cons_eq_ok {part : Section} {rest : List Section} {scenes : List Scene}
    (read : Section.scenes (part :: rest) = .ok scenes) :
    ∃ scene others, part.read.result = .ok scene ∧ Section.scenes rest = .ok others ∧
      scenes = scene :: others := by
  rw [scenes_eq_ok, List.map_cons] at read
  obtain ⟨scene, others, rfl, own, later⟩ := List.map_eq_cons_iff.1 read.symm
  exact ⟨scene, others, own.symm, scenes_eq_ok.2 later.symm, rfl⟩

theorem accounted_sections {parts : List Section} (proper : ∀ part ∈ parts, part.Proper)
    {scenes : List Scene} (read : Section.scenes parts = .ok scenes) :
    (parts.flatMap account).map Entry.line = parts.flatMap Section.lines ∧
      Accounted (parts.flatMap account) (remarks parts) (scenes.flatMap Scene.body) := by
  induction parts generalizing scenes with
  | nil =>
      cases read
      exact ⟨rfl, accounted_nil⟩
  | cons part rest ih =>
      obtain ⟨first, later⟩ := List.forall_mem_cons.1 proper
      obtain ⟨scene, others, own, behind, rfl⟩ := scenes_cons_eq_ok read
      obtain ⟨lines, accounted⟩ := ih later behind
      rw [remarks, own]
      refine ⟨?_, (accounted_read first own).append accounted⟩
      rw [List.flatMap_cons, List.map_append, line_account own, lines, List.flatMap_cons]

theorem map_header_split (lines : List Line) :
    (split lines).2.map Section.header = lines.filter Line.isHeader := by
  induction lines with
  | nil => rfl
  | cons line rest ih =>
      cases heads : line.isHeader with
      | true => rw [split_header heads, List.map_cons, ih, List.filter_cons_of_pos heads]
      | false =>
          rw [split_plain heads, List.filter_cons_of_neg (by simp [heads])]
          exact ih

end Section

/-- Those of some headers whose id is known, or is that of a header before. -/
def Line.redefining (known : List (Option (List Char))) : List Line → List Line
  | [] => []
  | header :: rest =>
    let later := redefining (header.argument? :: known) rest
    if header.argument? ∈ known then header :: later else later

namespace Program

/-- The account of a script, one entry for each of its lines. -/
def account (text : String) : List Entry :=
  let (before, parts) := Section.split (Line.scan text.toList)
  before.map (fun line => ⟨line, .skipped⟩) ++ parts.flatMap Section.account

/-- The warnings about scenes that are defined again name the headers that do it, in order. -/
theorem duplicates_addSections {program : Program} {known : List (Option (List Char))}
    (same : ∀ id : String, program.index[id]?.isSome = true ↔ some id.toList ∈ known)
    {parts : List Section} {scenes : List Scene} (read : Section.scenes parts = .ok scenes) :
    ((program.addSections parts).warnings.filter Warning.isDuplicate).map Warning.line =
      (Line.redefining known (parts.map Section.header)).map Line.number := by
  induction parts generalizing program known scenes with
  | nil => rfl
  | cons part rest ih =>
      obtain ⟨scene, others, own, behind, rfl⟩ := Section.scenes_cons_eq_ok read
      have silent : part.read.warnings.filter Warning.isDuplicate = [] := by
        rw [List.filter_eq_nil_iff]
        intro warning member
        simp [Section.local_read part warning member]
      have next : ∀ id : String, (program.insert scene).1.index[id]?.isSome = true ↔
          some id.toList ∈ some scene.id.toList :: known := by
        intro id
        rw [isSome_index_insert, same]
        simp [String.toList_inj]
      simp only [addSections, own, List.filter_append, silent, List.map_append, ih next behind]
      rw [replaced_insert, List.map_cons, Line.redefining, (Section.read_ok own).1]
      cases taken : program.index[scene.id]?.isSome with
      | true =>
          rw [if_pos ((same scene.id).1 taken)]
          rfl
      | false =>
          have fresh : some scene.id.toList ∉ known := by
            rw [← same, taken]
            decide
          rw [if_neg fresh]
          rfl

theorem accounted_parse {text : String} {scenes : List Scene}
    (read : Section.scenes (Section.split (Line.scan text.toList)).2 = .ok scenes) :
    (account text).map Entry.line = Line.scan text.toList ∧
      Accounted (account text) (parse text).remarks (scenes.flatMap Scene.body) := by
  have outside := accounted_outside (@Section.plain_of_mem_split (Line.scan text.toList))
  obtain ⟨lines, inside⟩ := Section.accounted_sections Section.proper_of_mem_split read
  rw [parse, remarks_ofLines]
  refine ⟨?_, outside.append inside⟩
  rw [account, List.map_append, lines, List.map_map]
  exact (congrArg (· ++ _) (List.map_id _)).trans (Section.append_lines_split _)

theorem countP_isDuplicate_parse {text : String} {scenes : List Scene}
    (read : Section.scenes (Section.split (Line.scan text.toList)).2 = .ok scenes) :
    (parse text).warnings.countP Warning.isDuplicate =
      (Line.redefining [] ((Line.scan text.toList).filter Line.isHeader)).length := by
  have fresh : ∀ id : String, empty.index[id]?.isSome = true ↔
      some id.toList ∈ ([] : List (Option (List Char))) := by
    simp [empty]
  have count := congrArg List.length (duplicates_addSections fresh read)
  rw [Section.map_header_split, List.length_map, List.length_map,
    ← List.countP_eq_length_filter] at count
  have outside : ((Section.split (Line.scan text.toList)).1.map fun line =>
      line.warn (.outsideScene (String.ofList line.text))).countP Warning.isDuplicate = 0 := by
    rw [List.countP_map, List.countP_eq_zero]
    exact fun _ _ => Bool.false_ne_true
  rw [← count, parse, ofLines, List.countP_append, outside, Nat.zero_add]

/--
A script that is parsed has lost no line. Each of its lines is a header, the start of one statement
of a scene, the end of a block or of its then part, or skipped, and the number of a line is named by
one warning about a skipped line in the last case and by none otherwise. Over all scenes, also those
that are replaced, lines that close a block and warnings about a missing `end` are together as many
as the choices and branches; lines that start an else part are at most as many as the branches and
at least as many as those with something in their else part. There are no further warnings than
those of the skipped lines, the missing ends, the words behind `then` and the ids defined again.
-/
theorem parse_account {text : String} {program : Program}
    (parsed : (parse text).result = .ok program) :
    ∃ scenes, Section.scenes (Section.split (Line.scan text.toList)).2 = .ok scenes ∧
      ofScenes scenes = program ∧
      let entries := account text
      let warnings := (parse text).warnings
      let statements := Block.statements (scenes.flatMap Scene.body)
      entries.map Entry.line = Line.scan text.toList ∧
      (∀ entry ∈ entries, entry.Sound ∧
        ((warnings.filter Warning.isSkip).map Warning.line).count entry.line.number =
          if entry.isSkipped then 1 else 0) ∧
      entries.filterMap Entry.head? = statements.map Statement.head ∧
      entries.countP (Entry.ends "end") + warnings.countP Warning.isMissingEnd =
        statements.countP Statement.isChoice + statements.countP Statement.isBranch ∧
      entries.countP (Entry.ends "else") ≤ statements.countP Statement.isBranch ∧
      statements.countP Statement.hasElse ≤ entries.countP (Entry.ends "else") ∧
      warnings.length =
        entries.countP Entry.isSkipped + warnings.countP Warning.isMissingEnd +
          entries.countP Entry.trails +
          (Line.redefining [] ((Line.scan text.toList).filter Line.isHeader)).length := by
  obtain ⟨scenes, read, rfl⟩ := exists_scenes parsed
  obtain ⟨lines, accounted⟩ := accounted_parse read
  have skips : ((parse text).warnings.filter Warning.isSkip).map Warning.line =
      ((account text).filter Entry.isSkipped).map fun entry => entry.line.number := by
    rw [← accounted.skips, Outcome.filter_remarks]
    intro warning skip
    simp [Warning.isDuplicate_eq_not, skip]
  have missing : (parse text).remarks.countP Warning.isMissingEnd =
      (parse text).warnings.countP Warning.isMissingEnd := by
    apply Outcome.countP_remarks
    intro warning reports
    simp [Warning.isDuplicate_eq_not, reports]
  have trailing : (parse text).warnings.countP Warning.isAfterThen =
      (account text).countP Entry.trails := by
    rw [← accounted.trails, Outcome.countP_remarks]
    intro warning reports
    simp [Warning.isDuplicate_eq_not, reports]
  have ascending := Line.ascending_scan text.toList
  rw [← lines] at ascending
  refine ⟨scenes, read, rfl, lines, ?_, ?_, ?_, ?_, accounted.atLeast, ?_⟩
  · intro entry member
    refine ⟨accounted.sound entry member, ?_⟩
    rw [skips]
    exact Entry.count_number ascending Entry.isSkipped member
  · rw [accounted.heads, Block.map_head_statements]
  · rw [← Block.countP_opens, ← accounted.closed, missing]
  · rw [← Block.countP_isBranch]
    exact accounted.atMost
  · have skipped := congrArg List.length skips
    rw [List.length_map, List.length_map, ← List.countP_eq_length_filter,
      ← List.countP_eq_length_filter] at skipped
    rw [Warning.length_eq_kinds, skipped, trailing, countP_isDuplicate_parse read]

/-- A script with an `else` that no branch takes, ends that are longer words, and a scene twice. -/
def stairwell : String :=
  "go a\nscene a\nchoice \"b\"\nelse\nif c then d\nelsewhere\ngo a\nendless\nscene a"

theorem parse_account_stairwell :
    ∃ program, (parse stairwell).result = .ok program ∧
      ∃ scenes, ofScenes scenes = program ∧ scenes.length = 2 ∧
        (account stairwell).map Entry.line = Line.scan stairwell.toList ∧
        (account stairwell).map Entry.fate =
          [.skipped, .header, .statement (.choice "b"), .skipped,
            .statement (.branch (.ident "c")), .terminator, .statement (.go "a" 7), .terminator,
            .header] ∧
        1 + 1 = (Block.statements (scenes.flatMap Scene.body)).countP Statement.isChoice +
          (Block.statements (scenes.flatMap Scene.body)).countP Statement.isBranch ∧
        (parse stairwell).warnings.length = 2 + 1 + 1 + 1 := by
  have given : Section.scenes (Section.split (Line.scan stairwell.toList)).2 =
      .ok [⟨"a", 2, [.choice "b" [.branch (.ident "c") [] [.go "a" 7]]]⟩, ⟨"a", 9, []⟩] := by
    decide +kernel
  have parsed := result_parse stairwell
  rw [given] at parsed
  obtain ⟨scenes, read, made, lines, -, -, closed, -, -, total⟩ := parse_account parsed
  rw [given, Except.ok.injEq] at read
  obtain ⟨fates, ends, missing, skipped, trailing, again⟩ :
      (account stairwell).map Entry.fate =
        [.skipped, .header, .statement (.choice "b"), .skipped,
          .statement (.branch (.ident "c")), .terminator, .statement (.go "a" 7), .terminator,
          .header] ∧
      (account stairwell).countP (Entry.ends "end") = 1 ∧
      (parse stairwell).warnings.countP Warning.isMissingEnd = 1 ∧
      (account stairwell).countP Entry.isSkipped = 2 ∧
      (account stairwell).countP Entry.trails = 1 ∧
      (Line.redefining [] ((Line.scan stairwell.toList).filter Line.isHeader)).length = 1 := by
    decide +kernel
  rw [ends, missing] at closed
  rw [skipped, missing, trailing, again] at total
  exact ⟨_, parsed, scenes, made, by rw [← read]; rfl, lines, fates, closed, total⟩

end Program

end SceneScript
