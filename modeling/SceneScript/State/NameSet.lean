/-!
# Sets of names

A set of names is kept as its strictly ascending list, so equal sets are equal values and the list
is the order in which a set is written. Strings are ordered by code points.
-/

namespace SceneScript

set_option autoImplicit false

structure NameSet where
  names : List String
  ascending : names.Pairwise (· < ·)
deriving DecidableEq

namespace NameSet

def empty : NameSet where
  names := []
  ascending := .nil

instance : Inhabited NameSet := ⟨empty⟩

def contains (set : NameSet) (name : String) : Bool :=
  set.names.contains name

def insertName (name : String) : List String → List String
  | [] => [name]
  | first :: rest =>
    if name < first then name :: first :: rest
    else if name = first then first :: rest
    else first :: insertName name rest

theorem mem_insertName {name other : String} {names : List String} :
    other ∈ insertName name names ↔ other = name ∨ other ∈ names := by
  induction names with
  | nil => simp [insertName]
  | cons first rest ih =>
    unfold insertName
    split
    · simp
    · split
      · rename_i same
        simp [same]
      · simp only [List.mem_cons, ih]
        exact or_left_comm

theorem ascending_insertName {name : String} {names : List String}
    (ascending : names.Pairwise (· < ·)) : (insertName name names).Pairwise (· < ·) := by
  induction names with
  | nil => simp [insertName]
  | cons first rest ih =>
    obtain ⟨above, later⟩ := List.pairwise_cons.1 ascending
    unfold insertName
    split
    · rename_i below
      refine List.pairwise_cons.2 ⟨fun other member => ?_, ascending⟩
      rcases List.mem_cons.1 member with rfl | member
      · exact below
      · exact String.lt_trans below (above other member)
    · split
      · exact ascending
      · rename_i notBelow differ
        have after : first < name := by
          refine String.not_le.1 fun le => differ ?_
          exact String.le_antisymm le (String.not_lt.1 notBelow)
        refine List.pairwise_cons.2 ⟨fun other member => ?_, ih later⟩
        rcases mem_insertName.1 member with rfl | member
        · exact after
        · exact above other member

def insert (set : NameSet) (name : String) : NameSet where
  names := insertName name set.names
  ascending := ascending_insertName set.ascending

def erase (set : NameSet) (name : String) : NameSet where
  names := set.names.filter (· ≠ name)
  ascending := set.ascending.filter _

def ofList (names : List String) : NameSet :=
  names.foldl insert empty

@[simp] theorem contains_empty (name : String) : empty.contains name = false := rfl

@[simp] theorem contains_insert (set : NameSet) (name other : String) :
    (set.insert name).contains other = (other == name || set.contains other) := by
  rw [Bool.eq_iff_iff]
  simp [contains, insert, mem_insertName]

@[simp] theorem contains_erase (set : NameSet) (name other : String) :
    (set.erase name).contains other = (other != name && set.contains other) := by
  rw [Bool.eq_iff_iff]
  simp [contains, erase, and_comm]

end NameSet

end SceneScript
