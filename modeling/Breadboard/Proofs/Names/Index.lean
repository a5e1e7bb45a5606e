import Breadboard.Proofs.Names

/-!
# Name tables with an index

A table in which no name has to be searched for: besides the names in the order of their numbers, it
has the number of each name under the name itself. Both parts grow together, so that the index has
what a search would find, and the table answers as one without an index does.

* `Agrees.intern`, `Agrees.lookup`: entering names keeps the two parts together.
* `Agrees.answers`: the answers are the same.
-/
namespace Breadboard

structure IndexedTable where
  /-- The names in the order of their numbers. -/
  names : Array String := #[]
  ids : Std.HashMap String NameId := {}

namespace IndexedTable

def empty : IndexedTable := {}

def query? (x : IndexedTable) (name : String) : Option NameId := x.ids[name]?

def intern (x : IndexedTable) (name : String) : NameId × IndexedTable :=
  match x.query? name with
  | some id => (id, x)
  | none =>
    let id : NameId := ⟨x.names.size⟩
    (id, { names := x.names.push name, ids := x.ids.insert name id })

def lookup (x : IndexedTable) : List String → List NameId × IndexedTable
  | [] => ([], x)
  | name :: rest =>
    let (id, x) := x.intern name
    let (ids, x) := x.lookup rest
    (id :: ids, x)

def nameOf (x : IndexedTable) (id : NameId) : Except NameError String :=
  match x.names[id.index]? with
  | some name => .ok name
  | none => .error (.outOfRange id)

/-- The names are those of a table without an index, and the index has their numbers. -/
structure Agrees (x : IndexedTable) (t : NameTable) : Prop where
  names : x.names.toList = t.names
  ids : ∀ name, x.ids[name]? = t.query? name

/-- Whatever the two tables are asked next, they give the same answer. -/
structure Answers (x : IndexedTable) (t : NameTable) : Prop where
  query? : ∀ name, x.query? name = t.query? name
  nameOf : ∀ id, x.nameOf id = t.nameOf id
  intern : ∀ name, (x.intern name).1 = (t.intern name).1
  lookup : ∀ words, (x.lookup words).1 = (t.lookup words).1

namespace Agrees

variable {x : IndexedTable} {t : NameTable}

theorem empty : Agrees .empty .empty :=
  ⟨rfl, fun _ => Std.HashMap.getElem?_empty⟩

/-- A new name is put behind the others, and the index gets its number. -/
theorem push (h : Agrees x t) {name : String} (hnew : t.query? name = none) :
    Agrees ⟨x.names.push name, x.ids.insert name ⟨t.size⟩⟩ ⟨t.names ++ [name]⟩ where
  names := by rw [Array.toList_push, h.names]
  ids other := by
    have hintern := NameTable.intern_of_query?_eq_none hnew
    rw [Std.HashMap.getElem?_insert, h.ids]
    by_cases hsame : name = other
    · have hfound := t.query?_intern name
      rw [hintern] at hfound
      rw [if_pos (beq_iff_eq.2 hsame), ← hsame, hfound]
    · rw [if_neg (by simpa using hsame)]
      cases hother : t.query? other with
      | some id => exact (NameTable.query?_of_isPrefix (List.prefix_append _ _) hother).symm
      | none =>
        rw [NameTable.query?_eq_none_iff] at hother
        refine (NameTable.query?_eq_none_iff.2 fun hmem => ?_).symm
        rcases List.mem_append.1 hmem with hmem | hmem
        · exact hother hmem
        · exact hsame (List.mem_singleton.1 hmem).symm

theorem intern (h : Agrees x t) (name : String) :
    (x.intern name).1 = (t.intern name).1 ∧ Agrees (x.intern name).2 (t.intern name).2 := by
  have hsize : x.names.size = t.size := by rw [NameTable.size, ← h.names, Array.length_toList]
  rw [IndexedTable.intern, IndexedTable.query?, h.ids, hsize]
  cases hq : t.query? name with
  | some id =>
    rw [NameTable.intern_of_query? hq]
    exact ⟨rfl, h⟩
  | none =>
    rw [NameTable.intern_of_query?_eq_none hq]
    exact ⟨rfl, h.push hq⟩

theorem lookup (h : Agrees x t) (words : List String) :
    (x.lookup words).1 = (t.lookup words).1 ∧ Agrees (x.lookup words).2 (t.lookup words).2 := by
  induction words generalizing x t with
  | nil => exact ⟨rfl, h⟩
  | cons word words ih =>
    obtain ⟨hid, hrest⟩ := h.intern word
    obtain ⟨hids, hafter⟩ := ih hrest
    exact ⟨congrArg₂ List.cons hid hids, hafter⟩

theorem answers (h : Agrees x t) : Answers x t where
  query? := h.ids
  nameOf id := by
    have hplace : x.names[id.index]? = t.names[id.index]? := by
      rw [← h.names, Array.getElem?_toList]
    cases hname : t.names[id.index]? <;>
      simp [IndexedTable.nameOf, NameTable.nameOf, hplace, hname]
  intern name := (h.intern name).1
  lookup words := (h.lookup words).1

end Agrees

end IndexedTable

end Breadboard
