import Breadboard.NameTable
import Mathlib.Data.List.Infix

/-!
# Numbers of names

* `query?_of_isPrefix`: a name keeps its number when a table grows.
* `idOf_inj`: two names of a table have the same number only if they are the same name.
* `mem_names_lookup_iff`: which names are in a table after some have been entered.
-/
namespace Breadboard.NameTable

variable {t t' : NameTable} {name : String} {id : NameId}

theorem intern_of_query? (h : t.query? name = some id) : t.intern name = (id, t) := by
  rw [intern, h]

theorem intern_of_query?_eq_none (h : t.query? name = none) :
    t.intern name = (⟨t.size⟩, ⟨t.names ++ [name]⟩) := by
  rw [intern, h]

/-- The number of a name, or the one that it would be given. -/
def idOf (t : NameTable) (name : String) : NameId := (t.intern name).1

theorem idOf_of_query? (h : t.query? name = some id) : t.idOf name = id := by
  rw [idOf, intern_of_query? h]

theorem mem_names_of_query? (h : t.query? name = some id) : name ∈ t.names := by
  by_contra hmem
  rw [query?_eq_none_iff.2 hmem] at h
  cases h

theorem query?_of_mem_names (h : name ∈ t.names) : t.query? name = some (t.idOf name) := by
  cases hq : t.query? name with
  | none => exact absurd h (query?_eq_none_iff.1 hq)
  | some id => rw [idOf_of_query? hq]

theorem query?_inj {a b : String} (ha : t.query? a = some id) (hb : t.query? b = some id) :
    a = b := by
  have hplace := getElem?_of_query? ha
  rw [getElem?_of_query? hb] at hplace
  exact (Option.some.inj hplace).symm

theorem idOf_inj {a b : String} (ha : a ∈ t.names) (hb : b ∈ t.names)
    (h : t.idOf a = t.idOf b) : a = b := by
  have hquery := query?_of_mem_names ha
  rw [h] at hquery
  exact query?_inj hquery (query?_of_mem_names hb)

theorem index_lt_of_query? (h : t.query? name = some id) : id.index < t.size :=
  (List.getElem?_eq_some_iff.1 (getElem?_of_query? h)).1

theorem query?_of_isPrefix (h : t.names <+: t'.names) (hq : t.query? name = some id) :
    t'.query? name = some id := by
  obtain ⟨more, hmore⟩ := h
  obtain ⟨i, hi, rfl⟩ := Option.map_eq_some_iff.1 hq
  rw [query?, ← hmore, List.findIdx?_append, hi]
  rfl

theorem names_isPrefix_lookup (t : NameTable) (words : List String) :
    t.names <+: (t.lookup words).2.names := by
  induction words generalizing t with
  | nil => exact List.prefix_rfl
  | cons word words ih => exact (t.names_isPrefix_intern word).trans (ih _)

theorem mem_names_intern_iff {other : String} :
    other ∈ (t.intern name).2.names ↔ other ∈ t.names ∨ other = name := by
  unfold intern
  split
  · rename_i hq
    refine ⟨Or.inl, ?_⟩
    rintro (h | rfl)
    · exact h
    · exact mem_names_of_query? hq
  · simp

/-- After entering some words, a table has these and the names that it had before. -/
theorem mem_names_lookup_iff {words : List String} :
    name ∈ (t.lookup words).2.names ↔ name ∈ t.names ∨ name ∈ words := by
  induction words generalizing t with
  | nil => simp [lookup]
  | cons word words ih =>
    show name ∈ ((t.intern word).2.lookup words).2.names ↔ _
    rw [ih, mem_names_intern_iff, List.mem_cons, or_assoc]

end Breadboard.NameTable
