/-!
# Name tables

Every word of a definition is entered into a name table once and known by its number from
then on. Numbers are given out in order of first entry and are never taken back, so a table
only grows at its end.

* `nameOf_of_query?`: a number that a name has leads back to that name.
* `query?_intern`: a name that was entered is found under the number it was given.
* `names_isPrefix_intern`: entering a name keeps all earlier ones in place.
-/
namespace Breadboard

/-- The number under which a name table keeps a name. -/
structure NameId where
  index : Nat
  deriving DecidableEq, Repr

/-- The form in which a number stands for a name that is not in the table. -/
def NameId.label (id : NameId) : String := s!"#{id.index}"

instance : ToString NameId := ⟨NameId.label⟩

/-- What can go wrong when a number is turned back into a name. -/
inductive NameError where
  /-- The table never gave out this number. -/
  | outOfRange (id : NameId)
  deriving DecidableEq, Repr

def NameError.message : NameError → String
  | .outOfRange id => s!"Name id {id} is out of range"

/-- Names in the order of their numbers. -/
structure NameTable where
  names : List String := []
  deriving DecidableEq, Repr

namespace NameTable

def empty : NameTable := {}

def size (t : NameTable) : Nat := t.names.length

/-- The number of a name that was entered before. -/
def query? (t : NameTable) (name : String) : Option NameId :=
  (t.names.findIdx? (· == name)).map NameId.mk

/-- The number of a name, which is entered if it is new. -/
def intern (t : NameTable) (name : String) : NameId × NameTable :=
  match t.query? name with
  | some id => (id, t)
  | none => (⟨t.size⟩, ⟨t.names ++ [name]⟩)

/-- The numbers of several names, entered from left to right. -/
def lookup (t : NameTable) : List String → List NameId × NameTable
  | [] => ([], t)
  | name :: rest =>
    let (id, t) := t.intern name
    let (ids, t) := t.lookup rest
    (id :: ids, t)

def nameOf (t : NameTable) (id : NameId) : Except NameError String :=
  match t.names[id.index]? with
  | some name => .ok name
  | none => .error (.outOfRange id)

/-- The name with a given number, or the number itself where there is no such name. -/
def displayName (t : NameTable) (id : NameId) : String :=
  t.names[id.index]?.getD id.label

theorem query?_eq_none_iff {t : NameTable} {name : String} :
    t.query? name = none ↔ name ∉ t.names := by
  simp only [query?, Option.map_eq_none_iff, List.findIdx?_eq_none_iff]
  grind

theorem getElem?_of_query? {t : NameTable} {name : String} {id : NameId}
    (h : t.query? name = some id) : t.names[id.index]? = some name := by
  obtain ⟨i, hi, rfl⟩ := Option.map_eq_some_iff.1 h
  obtain ⟨hlt, hp, _⟩ := List.findIdx?_eq_some_iff_getElem.1 hi
  rw [List.getElem?_eq_getElem hlt]
  exact congrArg some (eq_of_beq hp)

theorem nameOf_of_query? {t : NameTable} {name : String} {id : NameId}
    (h : t.query? name = some id) : t.nameOf id = .ok name := by
  simp [nameOf, getElem?_of_query? h]

/-- Entering a name keeps all earlier ones in place. -/
theorem names_isPrefix_intern (t : NameTable) (name : String) :
    t.names <+: (t.intern name).2.names := by
  unfold intern
  split
  · exact List.prefix_rfl
  · exact List.prefix_append _ _

theorem query?_intern (t : NameTable) (name : String) :
    (t.intern name).2.query? name = some (t.intern name).1 := by
  unfold intern
  split
  · assumption
  · rename_i h
    have hn : t.names.findIdx? (· == name) = none := by simpa [query?] using h
    simp [query?, List.findIdx?_append, hn, size]

end NameTable

end Breadboard
