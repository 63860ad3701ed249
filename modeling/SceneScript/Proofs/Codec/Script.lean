import SceneScript.Proofs.Script.Representation

/-!
# Scripts are written without loss

What is written of a value reads as this value, and what reads gives a value that is written and
read again as itself. Line numbers are natural numbers here, while only unsigned 64-bit words can be
read, so a value has to fit; every value that was read does. A program is written as its scenes
alone, and reading builds its index again.
-/

namespace SceneScript

open SceneScript.Text

set_option autoImplicit false

/--
A form for the values that fit: each of them reads back from any of its written forms, and whatever
reads is a value that fits, which its own written forms give again.
-/
structure Lossless {α : Type} (Fits : α → Prop) (Written : α → Json → Prop)
    (ofJson? : Json → Option α) : Prop where
  restores : ∀ value form, Fits value → Written value form → ofJson? form = some value
  settles : ∀ json value, ofJson? json = some value →
    Fits value ∧ ∀ form, Written value form → ofJson? form = some value

section Lossless

variable {α : Type} {Fits : α → Prop} {Written : α → Json → Prop} {toJson : α → Json}
  {ofJson? : Json → Option α}

theorem Lossless.of_forms
    (restores : ∀ value form, Fits value → Written value form → ofJson? form = some value)
    (fits : ∀ json value, ofJson? json = some value → Fits value) :
    Lossless Fits Written ofJson? where
  restores := restores
  settles := by
    intro json value read
    have sound := fits json value read
    exact ⟨sound, fun form written => restores value form sound written⟩

theorem Lossless.of_fits (back : ∀ value, Fits value → ofJson? (toJson value) = some value)
    (fits : ∀ json value, ofJson? json = some value → Fits value) :
    Lossless Fits (toJson · = ·) ofJson? :=
  .of_forms (fun value _ sound written => written ▸ back value sound) fits

theorem Lossless.of_all (back : ∀ value, ofJson? (toJson value) = some value) :
    Lossless (fun _ => True) (toJson · = ·) ofJson? :=
  .of_fits (fun value _ => back value) fun _ _ _ => trivial

end Lossless

theorem mapM_map_eq_some {α : Type} {encode : α → Json} {decode : Json → Option α}
    {values : List α} (back : ∀ value ∈ values, decode (encode value) = some value) :
    (values.map encode).mapM decode = some values := by
  induction values with
  | nil => rfl
  | cons value rest ih =>
      have later := ih fun other member => back other (by simp [member])
      simp [back value (by simp), later]

theorem forall_of_mapM_eq_some {α : Type} {decode : Json → Option α} {Fits : α → Prop}
    (fits : ∀ item value, decode item = some value → Fits value) {items : List Json}
    {values : List α} (read : items.mapM decode = some values) : ∀ value ∈ values, Fits value := by
  induction items generalizing values with
  | nil =>
      obtain rfl : [] = values := by simpa using read
      simp
  | cons item rest ih =>
      simp only [List.mapM_cons, Option.bind_eq_bind, Option.bind_eq_some_iff] at read
      obtain ⟨first, isFirst, others, areOthers, same⟩ := read
      cases same
      exact List.forall_mem_cons.2 ⟨fits item first isFirst, ih areOthers⟩

namespace Json

@[simp] theorem str?_str (value : String) : str? (.str value) = some value := rfl

@[simp] theorem arr?_arr (items : List Json) : arr? (.arr items) = some items := rfl

@[simp] theorem tagged?_record (tag : String) (members : List (String × Json)) :
    tagged? (.record tag members) = some (tag, some (.obj members)) := rfl

@[simp] theorem tagged?_single (tag : String) (content : Json) :
    tagged? (.obj [(tag, content)]) = some (tag, some content) := rfl

@[simp] theorem tagged?_str (tag : String) : tagged? (.str tag) = some (tag, none) := rfl

theorem eq_str_of_str? {json : Json} {text : String} (read : json.str? = some text) :
    json = .str text := by
  cases json with
  | str value =>
      cases read
      rfl
  | _ => cases read

theorem word?_nat {number : Nat} (fits : number < unsignedLimit) :
    word? (.nat number) = some number := by
  have inside : (0 : Int) ≤ number ∧ (number : Int) < unsignedLimit := by omega
  rw [nat, word?, if_pos inside, Int.toNat_natCast]

theorem lt_of_word? {json : Json} {number : Nat} (read : json.word? = some number) :
    number < unsignedLimit := by
  unfold word? at read
  split at read
  · rw [Option.ite_none_right_eq_some, Option.some.injEq] at read
    omega
  · cases read

@[simp] theorem int64?_toInt (value : Int64) : int64? (.int value.toInt) = some value := by
  have inside : -(signedLimit : Int) ≤ value.toInt ∧ value.toInt < signedLimit :=
    ⟨Int64.le_toInt value, Int64.toInt_lt value⟩
  rw [int64?, if_pos inside, Int64.ofInt_toInt]

end Json

theorem Condition.ofJson?_toJson (condition : Condition) :
    Condition.ofJson? condition.toJson = some condition := by
  induction condition with
  | conj left right first second =>
      rw [toJson, ofJson?]
      simp [first, second]
  | disj left right first second =>
      rw [toJson, ofJson?]
      simp [first, second]
  | neg inner ih =>
      rw [toJson, ofJson?]
      simp [ih]
  | has name =>
      rw [toJson, ofJson?]
      simp
  | ident name =>
      rw [toJson, ofJson?]
      simp
  | literal value =>
      cases value <;> rw [toJson, ofJson?] <;> simp

theorem StyleChange.ofJson?_toJson (change : StyleChange) :
    StyleChange.ofJson? change.toJson = some change := by
  cases change <;> simp [toJson, ofJson?]

mutual

/-- Every line number inside the statement is an unsigned 64-bit word. -/
def Statement.Fits : Statement → Prop
  | .act _ => True
  | .go _ line => line < unsignedLimit
  | .choice _ body => Block.Fits body
  | .branch _ thenBody elseBody => Block.Fits thenBody ∧ Block.Fits elseBody

def Block.Fits : List Statement → Prop
  | [] => True
  | statement :: rest => statement.Fits ∧ Block.Fits rest

end

namespace Statement

/-- What a tag with its content reads as. The blocks inside were read before. -/
inductive Reads : String → Json → Statement → Prop where
  | act {tag : String} {content : Json} {action : Action}
      (read : Action.ofTag? tag content = some action) : Reads tag content (.act action)
  | go {content number : Json} {target : String} {line : Nat}
      (fields : content.namedFields? ["target", "line"] = some [.str target, number])
      (read : number.word? = some line) : Reads "Goto" content (.go target line)
  | choice {content : Json} {label : String} {items : List Json} {body : Block}
      (fields : content.namedFields? ["label", "body"] = some [.str label, .arr items])
      (read : Block.ofJsons? items = some body) : Reads "Choice" content (.choice label body)
  | branch {content asked : Json} {condition : Condition} {thenItems elseItems : List Json}
      {thenBody elseBody : Block}
      (fields : content.namedFields? ["condition", "then_body", "else_body"] =
        some [asked, .arr thenItems, .arr elseItems])
      (asks : Condition.ofJson? asked = some condition)
      (first : Block.ofJsons? thenItems = some thenBody)
      (second : Block.ofJsons? elseItems = some elseBody) :
      Reads "If" content (.branch condition thenBody elseBody)

theorem reads_of_ofJson? {json : Json} {statement : Statement}
    (read : ofJson? json = some statement) :
    ∃ tag content, json.tagged? = some (tag, some content) ∧ Reads tag content statement := by
  rw [ofJson?] at read
  split at read
  · rename_i tag content tagged
    refine ⟨tag, content, tagged, ?_⟩
    split at read
    · rename_i same
      subst same
      split at read
      · rename_i target line fields
        simp only [Option.bind_eq_bind, Option.bind_eq_some_iff] at read
        obtain ⟨text, isText, number, isWord, same⟩ := read
        cases same
        exact .go (Json.eq_str_of_str? isText ▸ fields) isWord
      · cases read
    · split at read
      · rename_i same
        subst same
        split at read
        · rename_i label items fields
          simp only [Option.bind_eq_bind, Option.bind_eq_some_iff] at read
          obtain ⟨text, isText, body, inner, same⟩ := read
          cases same
          exact .choice (Json.eq_str_of_str? isText ▸ fields) inner
        · cases read
      · split at read
        · rename_i same
          subst same
          split at read
          · rename_i asked thenItems elseItems fields
            simp only [Option.bind_eq_bind, Option.bind_eq_some_iff] at read
            obtain ⟨condition, asks, thenBody, first, elseBody, second, same⟩ := read
            cases same
            exact .branch fields asks first second
          · cases read
        · obtain ⟨action, isAction, rfl⟩ := Option.map_eq_some_iff.1 read
          exact .act isAction
  · cases read

theorem ofJson?_of_reads {json content : Json} {tag : String} {statement : Statement}
    (tagged : json.tagged? = some (tag, some content)) (reads : Reads tag content statement) :
    ofJson? json = some statement := by
  rw [ofJson?]
  split
  · rename_i found same
    rw [tagged] at same
    cases same
    cases reads with
    | act read =>
        -- no action has one of the three tags that are looked at first
        have other : tag ≠ "Goto" ∧ tag ≠ "Choice" ∧ tag ≠ "If" := by
          refine ⟨?_, ?_, ?_⟩ <;> rintro rfl <;> cases read
        simp [other, read]
    | go fields read => simp [fields, read]
    | choice fields read =>
        simp only [String.reduceEq, if_true, if_false]
        split
        · rename_i again
          rw [fields] at again
          cases again
          simp [read]
        · rename_i never
          exact absurd fields (never _ _)
    | branch fields asks first second =>
        simp only [String.reduceEq, if_true, if_false]
        split
        · rename_i again
          rw [fields] at again
          cases again
          simp [asks, first, second]
        · rename_i never
          exact absurd fields (never _ _ _)
  · rename_i never
    exact absurd tagged (never _ _)

end Statement

theorem Action.exists_ofTag?_toJson (action : Action) :
    ∃ tag content, action.toJson.tagged? = some (tag, some content) ∧
      ofTag? tag content = some action := by
  cases action with
  | style change => exact ⟨_, _, rfl, by simp [ofTag?, StyleChange.ofJson?_toJson]⟩
  | _ => exact ⟨_, _, rfl, by simp [ofTag?, Json.namedText?, Json.member?]⟩

mutual

theorem Statement.ofJson?_toJson : ∀ statement : Statement, statement.Fits →
    Statement.ofJson? statement.toJson = some statement
  | .act action, _ => by
      obtain ⟨tag, content, tagged, read⟩ := action.exists_ofTag?_toJson
      rw [Statement.toJson]
      exact Statement.ofJson?_of_reads tagged (.act read)
  | .go target line, fits => by
      rw [Statement.Fits] at fits
      rw [Statement.toJson]
      exact Statement.ofJson?_of_reads rfl (.go rfl (Json.word?_nat fits))
  | .choice label body, fits => by
      rw [Statement.Fits] at fits
      rw [Statement.toJson]
      exact Statement.ofJson?_of_reads rfl (.choice rfl (Block.ofJsons?_toJsons body fits))
  | .branch condition thenBody elseBody, fits => by
      rw [Statement.Fits] at fits
      rw [Statement.toJson]
      exact Statement.ofJson?_of_reads rfl (.branch rfl condition.ofJson?_toJson
        (Block.ofJsons?_toJsons thenBody fits.1) (Block.ofJsons?_toJsons elseBody fits.2))

theorem Block.ofJsons?_toJsons : ∀ block : List Statement, Block.Fits block →
    Block.ofJsons? (Block.toJsons block) = some block
  | [], _ => by
      rw [Block.toJsons, Block.ofJsons?]
  | statement :: rest, fits => by
      rw [Block.Fits] at fits
      rw [Block.toJsons, Block.ofJsons?, Statement.ofJson?_toJson statement fits.1,
        Block.ofJsons?_toJsons rest fits.2]
      rfl

end

mutual

theorem Statement.fits_of_ofJson? (json : Json) (statement : Statement)
    (read : Statement.ofJson? json = some statement) : statement.Fits := by
  obtain ⟨tag, content, tagged, reads⟩ := Statement.reads_of_ofJson? read
  have outer := Json.sizeOf_content_lt tagged
  cases reads with
  | act _ =>
      rw [Statement.Fits]
      trivial
  | go _ word =>
      rw [Statement.Fits]
      exact Json.lt_of_word? word
  | @choice _ label items body fields block =>
      have inner := Json.sizeOf_field_lt fields (show Json.arr items ∈ _ by simp)
      rw [Statement.Fits]
      exact Block.fits_of_ofJsons? items body block
  | @branch _ asked condition thenItems elseItems thenBody elseBody fields _ first second =>
      have left := Json.sizeOf_field_lt fields (show Json.arr thenItems ∈ _ by simp)
      have right := Json.sizeOf_field_lt fields (show Json.arr elseItems ∈ _ by simp)
      rw [Statement.Fits]
      exact ⟨Block.fits_of_ofJsons? thenItems thenBody first,
        Block.fits_of_ofJsons? elseItems elseBody second⟩
termination_by sizeOf json
decreasing_by
  all_goals simp only [Json.arr.sizeOf_spec] at *; omega

theorem Block.fits_of_ofJsons? (items : List Json) (block : Block)
    (read : Block.ofJsons? items = some block) : Block.Fits block := by
  cases items with
  | nil =>
      rw [Block.ofJsons?] at read
      cases read
      rw [Block.Fits]
      trivial
  | cons item rest =>
      rw [Block.ofJsons?] at read
      simp only [Option.bind_eq_bind, Option.bind_eq_some_iff] at read
      obtain ⟨statement, here, others, later, same⟩ := read
      cases same
      rw [Block.Fits]
      exact ⟨Statement.fits_of_ofJson? item statement here,
        Block.fits_of_ofJsons? rest others later⟩
termination_by sizeOf items

end

namespace Scene

structure Fits (scene : Scene) : Prop where
  line : scene.line < unsignedLimit
  body : Block.Fits scene.body

theorem ofJson?_toJson (scene : Scene) (fits : scene.Fits) :
    ofJson? scene.toJson = some scene := by
  have fields : scene.toJson.fields? ["id", "line", "body"] =
      some [.str scene.id, .nat scene.line, Block.toJson scene.body] := rfl
  simp [ofJson?, fields, Json.word?_nat fits.line, Block.ofJson?, Block.toJson,
    Block.ofJsons?_toJsons scene.body fits.body]

theorem fits_of_ofJson? (json : Json) (scene : Scene) (read : ofJson? json = some scene) :
    scene.Fits := by
  unfold ofJson? at read
  split at read
  · simp only [Option.bind_eq_bind, Option.bind_eq_some_iff] at read
    obtain ⟨id, -, line, word, body, block, same⟩ := read
    cases same
    obtain ⟨items, -, inner⟩ := Option.bind_eq_some_iff.1 block
    exact ⟨Json.lt_of_word? word, Block.fits_of_ofJsons? items body inner⟩
  · cases read

end Scene

namespace Program

/-- The program was built by insertions, and the line numbers are unsigned 64-bit words. -/
structure Fits (program : Program) : Prop where
  built : ∃ inserted, program = empty.extend inserted
  scenes : ∀ scene ∈ program.scenes.toList, scene.Fits

/-- Scenes in any order and number are read as if they were inserted one by one. -/
theorem ofJson?_scenes {scenes : List Scene} (fits : ∀ scene ∈ scenes, scene.Fits) :
    ofJson? (.obj [("scenes", .arr (scenes.map Scene.toJson))]) = some (ofScenes scenes) := by
  have read : (scenes.map Scene.toJson).mapM Scene.ofJson? = some scenes :=
    mapM_map_eq_some fun scene member => Scene.ofJson?_toJson scene (fits scene member)
  have fields : Json.fields? ["scenes"] (.obj [("scenes", .arr (scenes.map Scene.toJson))]) =
      some [.arr (scenes.map Scene.toJson)] := rfl
  simp only [ofJson?, fields, read, Option.map_some]

theorem ofJson?_toJson (program : Program) (fits : program.Fits) :
    ofJson? program.toJson = some program := by
  obtain ⟨inserted, built⟩ := fits.built
  have rebuilt : ofScenes program.scenes.toList = program := by
    rw [built]
    exact (records_extend records_empty inserted).rebuilt
  rw [toJson, ofJson?_scenes fits.scenes, rebuilt]

theorem fits_of_ofJson? (json : Json) (program : Program) (read : ofJson? json = some program) :
    program.Fits := by
  unfold ofJson? at read
  split at read
  · obtain ⟨inserted, each, rfl⟩ := Option.map_eq_some_iff.1 read
    refine ⟨⟨inserted, rfl⟩, fun scene member => ?_⟩
    have given : scene ∈ inserted := by
      rcases mem_extend.1 (Array.mem_toList_iff.1 member) with
        ⟨front, behind, split, -⟩ | ⟨none, -⟩
      · simp [split]
      · simp [empty] at none
    exact forall_of_mapM_eq_some Scene.fits_of_ofJson? each scene given
  · cases read

end Program

end SceneScript
