import SceneScript.Text.Numeral

/-!
# JSON values

Numbers are kept apart as they are written: `int` for a plain integer, `real` for a number with a
fraction or an exponent and for `-0`. An object keeps its members in order. `unpaired` is a value
that is well formed but has no text, because a string in it has half of a surrogate pair.
-/

namespace SceneScript

open SceneScript.Text

set_option autoImplicit false

inductive Json where
  | null
  | bool (value : Bool)
  | int (value : Int)
  | real (text : String)
  | str (value : String)
  | arr (items : List Json)
  | obj (members : List (String × Json))
  | unpaired

namespace Json

instance : Inhabited Json := ⟨null⟩

def nat (value : Nat) : Json :=
  int value

def strings (values : List String) : Json :=
  arr (values.map str)

def option {α : Type} (encode : α → Json) : Option α → Json
  | some value => encode value
  | none => null

def null? : Json → Option Unit
  | null => some ()
  | _ => none

def str? : Json → Option String
  | str value => some value
  | _ => none

def bool? : Json → Option Bool
  | bool value => some value
  | _ => none

def arr? : Json → Option (List Json)
  | arr items => some items
  | _ => none

def word? : Json → Option Nat
  | int value => if 0 ≤ value ∧ value < unsignedLimit then some value.toNat else none
  | _ => none

def int64? : Json → Option Int64
  | int value =>
    if -(signedLimit : Int) ≤ value ∧ value < signedLimit then some (Int64.ofInt value) else none
  | _ => none

def member? (value : Json) (key : String) : Option Json :=
  match value with
  | obj members => members.lookup key
  | _ => none

def strings? (value : Json) : Option (List String) :=
  value.arr?.bind fun items => items.mapM str?

/-- The members of an object in the order of the names; it may have other members. -/
def namedFields? (names : List String) : Json → Option (List Json)
  | obj members => names.mapM (members.lookup ·)
  | _ => none

/-- The fields of a record, which is written as an object or as an array of exactly the fields. -/
def fields? (names : List String) : Json → Option (List Json)
  | arr items => if items.length = names.length then some items else none
  | value => value.namedFields? names

def namedText? (name : String) (value : Json) : Option String :=
  (value.member? name).bind str?

/-- A tag with its content. A tag without content may be written as a bare string. -/
def tagged? : Json → Option (String × Option Json)
  | str tag => some (tag, none)
  | obj [(tag, content)] => some (tag, some content)
  | _ => none

def record (tag : String) (members : List (String × Json)) : Json :=
  obj [(tag, obj members)]

theorem sizeOf_lookup_lt {members : List (String × Json)} {key : String} {value : Json}
    (found : members.lookup key = some value) : sizeOf value < sizeOf members := by
  induction members with
  | nil => simp at found
  | cons first rest ih =>
    obtain ⟨name, other⟩ := first
    simp only [List.lookup_cons] at found
    split at found
    · cases found
      simp only [List.cons.sizeOf_spec, Prod.mk.sizeOf_spec]
      omega
    · have := ih found
      simp only [List.cons.sizeOf_spec]
      omega

theorem sizeOf_field_lt {names : List String} {value field : Json} {fields : List Json}
    (found : value.namedFields? names = some fields) (member : field ∈ fields) :
    sizeOf field < sizeOf value := by
  cases value with
  | obj members =>
    simp only [namedFields?] at found
    have named : ∃ name, members.lookup name = some field := by
      induction names generalizing fields with
      | nil => simp at found; subst found; simp at member
      | cons name rest ih =>
        simp only [List.mapM_cons, Option.bind_eq_bind, Option.bind_eq_some_iff] at found
        obtain ⟨first, isFirst, others, areOthers, same⟩ := found
        cases same
        rcases List.mem_cons.1 member with rfl | member
        · exact ⟨name, isFirst⟩
        · exact ih member areOthers
    obtain ⟨name, found⟩ := named
    have := sizeOf_lookup_lt found
    simp only [obj.sizeOf_spec]
    omega
  | _ => simp [namedFields?] at found

theorem sizeOf_content_lt {value content : Json} {tag : String}
    (found : value.tagged? = some (tag, some content)) : sizeOf content < sizeOf value := by
  unfold tagged? at found
  split at found
  · simp at found
  · cases found
    simp only [obj.sizeOf_spec, List.cons.sizeOf_spec, Prod.mk.sizeOf_spec]
    omega
  · cases found

theorem sizeOf_item_lt {value item : Json} {tag : String} {items : List Json}
    (found : value.tagged? = some (tag, some (arr items))) (member : item ∈ items) :
    sizeOf item < sizeOf value := by
  have outer := sizeOf_content_lt found
  have inner := List.sizeOf_lt_of_mem member
  simp only [arr.sizeOf_spec] at outer
  omega

end Json

end SceneScript
