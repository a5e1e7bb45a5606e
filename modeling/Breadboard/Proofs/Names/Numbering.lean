import Breadboard.Proofs.Names.Index

/-!
# Numbering

What a name table answers, whatever it is asked. The account of some calls has the names that they
enter, each with the number that is given back for it, the earliest first. Names are found in the
table under the numbers of the account, and numbers stand in it for the names of the account.

* `Keeps.intern`, `Keeps.after`: every call keeps the table in line with the account.
* `afterAll_intern`, `account_intern`: a lookup enters its words one by one.
* `IndexedTable.Agrees.afterAll`: a table with an index goes along with one without.
* `calls_number`: the main result, for every sequence of calls.
-/
namespace Breadboard

namespace NameTable

/-! ## Calls -/

/-- What a table is asked. -/
inductive Call where
  | intern (name : String)
  | lookup (words : List String)
  | query (name : String)
  deriving DecidableEq, Repr

def after (t : NameTable) : Call → NameTable
  | .intern name => (t.intern name).2
  | .lookup words => (t.lookup words).2
  | .query _ => t

/-- The names that a call enters, each with the number that is given back for it. -/
def entered (t : NameTable) : Call → List (String × NameId)
  | .intern name => [(name, (t.intern name).1)]
  | .lookup words => words.zip (t.lookup words).1
  | .query _ => []

def afterAll (t : NameTable) (calls : List Call) : NameTable := calls.foldl after t

def account (t : NameTable) : List Call → List (String × NameId)
  | [] => []
  | call :: calls => t.entered call ++ account (t.after call) calls

variable {t : NameTable} {name : String} {id : NameId} {account : List (String × NameId)}

/-! ## Lookups -/

/-- Words that are looked up are entered one by one. -/
theorem afterAll_intern (t : NameTable) (words : List String) :
    t.afterAll (words.map .intern) = (t.lookup words).2 := by
  induction words generalizing t with
  | nil => rfl
  | cons word words ih => exact ih (t.intern word).2

/-- A lookup gives back the numbers that its words are given one by one. -/
theorem account_intern (t : NameTable) (words : List String) :
    (t.account (words.map .intern)).unzip = (words, (t.lookup words).1) := by
  induction words generalizing t with
  | nil => rfl
  | cons word words ih =>
    show List.unzip ((word, (t.intern word).1) :: (t.intern word).2.account (words.map .intern)) = _
    rw [List.unzip_cons, ih]
    rfl

theorem entered_lookup (t : NameTable) (words : List String) :
    t.entered (.lookup words) = t.account (words.map .intern) := by
  have hzip := List.zip_unzip (t.account (words.map .intern))
  rwa [account_intern] at hzip

/-! ## Table and account in line -/

theorem eraseDups_concat_of_mem {α : Type} [BEq α] [LawfulBEq α] {xs : List α} {x : α}
    (h : x ∈ xs) : (xs ++ [x]).eraseDups = xs.eraseDups := by
  simp [List.eraseDups_append, List.removeAll, h]

theorem eraseDups_concat_of_notMem {α : Type} [BEq α] [LawfulBEq α] {xs : List α} {x : α}
    (h : x ∉ xs) : (xs ++ [x]).eraseDups = xs.eraseDups ++ [x] := by
  simp [List.eraseDups_append, List.removeAll, List.eraseDups_cons, h]

/-- The table has the names of the account in order of first appearance, and the numbers of the
account count them. -/
structure Keeps (t : NameTable) (account : List (String × NameId)) : Prop where
  names : (account.map (·.1)).eraseDups = t.names
  ids : (account.map (·.2)).eraseDups = (List.range t.size).map NameId.mk
  query? : ∀ e ∈ account, t.query? e.1 = some e.2

namespace Keeps

theorem empty : Keeps .empty [] :=
  ⟨rfl, rfl, fun _ he => absurd he List.not_mem_nil⟩

theorem mem_names_iff (h : Keeps t account) : name ∈ t.names ↔ ∃ id, (name, id) ∈ account := by
  rw [← h.names, List.mem_eraseDups]
  simp

/-- A name is found just under the number that it was given. -/
theorem query?_iff (h : Keeps t account) : t.query? name = some id ↔ (name, id) ∈ account := by
  refine ⟨fun hq => ?_, h.query? _⟩
  obtain ⟨id', hmem⟩ := h.mem_names_iff.1 (mem_names_of_query? hq)
  have hid' : t.query? name = some id' := h.query? _ hmem
  rw [hq] at hid'
  exact Option.some.inj hid' ▸ hmem

theorem mem_ids_iff (h : Keeps t account) : id ∈ account.map (·.2) ↔ id.index < t.size := by
  rw [← List.mem_eraseDups, h.ids, List.mem_map]
  constructor
  · rintro ⟨i, hi, rfl⟩
    exact List.mem_range.1 hi
  · exact fun hi => ⟨id.index, List.mem_range.2 hi, rfl⟩

theorem query?_of_getElem? (h : Keeps t account) (hplace : t.names[id.index]? = some name) :
    t.query? name = some id := by
  have hlt : id.index < t.size := (List.getElem?_eq_some_iff.1 hplace).1
  obtain ⟨⟨name', _⟩, hmem, rfl⟩ := List.mem_map.1 (h.mem_ids_iff.2 hlt)
  have hquery := h.query? _ hmem
  rw [getElem?_of_query? hquery] at hplace
  exact Option.some.inj hplace ▸ hquery

/-- A number stands just for the name that it was given to. -/
theorem nameOf_iff (h : Keeps t account) : t.nameOf id = .ok name ↔ (name, id) ∈ account := by
  refine ⟨fun hname => ?_, fun hmem => nameOf_of_query? (h.query? _ hmem)⟩
  unfold nameOf at hname
  split at hname
  · rename_i hplace
    rw [Except.ok.inj hname] at hplace
    exact h.query?_iff.1 (h.query?_of_getElem? hplace)
  · cases hname

/-- A name that is in the table is given its old number, and a new name the next one. -/
theorem intern (h : Keeps t account) (name : String) :
    Keeps (t.intern name).2 (account ++ [(name, (t.intern name).1)]) := by
  have hstays : ∀ e ∈ account ++ [(name, (t.intern name).1)],
      (t.intern name).2.query? e.1 = some e.2 := by
    intro e he
    rcases List.mem_append.1 he with he | he
    · exact query?_of_isPrefix (t.names_isPrefix_intern name) (h.query? e he)
    · rw [List.mem_singleton.1 he]
      exact t.query?_intern name
  refine ⟨?names, ?ids, hstays⟩ <;> rw [List.map_append, List.map_singleton]
  case names =>
    cases hq : t.query? name with
    | some id =>
      have hmem : name ∈ account.map (·.1) := List.mem_map_of_mem (h.query?_iff.1 hq)
      rw [eraseDups_concat_of_mem hmem, h.names, intern_of_query? hq]
    | none =>
      have hnew : name ∉ account.map (·.1) := by
        rw [← List.mem_eraseDups, h.names]
        exact query?_eq_none_iff.1 hq
      rw [eraseDups_concat_of_notMem hnew, h.names, intern_of_query?_eq_none hq]
  case ids =>
    cases hq : t.query? name with
    | some id =>
      have hmem : id ∈ account.map (·.2) := List.mem_map_of_mem (h.query?_iff.1 hq)
      rw [intern_of_query? hq, eraseDups_concat_of_mem hmem, h.ids]
    | none =>
      have hnext : ⟨t.size⟩ ∉ account.map (·.2) := fun hmem =>
        Nat.lt_irrefl _ (h.mem_ids_iff.1 hmem)
      rw [intern_of_query?_eq_none hq, eraseDups_concat_of_notMem hnext, h.ids, size, size,
        List.length_append, List.length_singleton, List.range_succ, List.map_append,
        List.map_singleton]

theorem lookup (h : Keeps t account) (words : List String) :
    Keeps (t.lookup words).2 (account ++ t.entered (.lookup words)) := by
  rw [entered_lookup]
  induction words generalizing t account with
  | nil => rwa [List.map_nil, NameTable.account, List.append_nil]
  | cons word words ih =>
    have hrest := ih (h.intern word)
    rwa [List.append_assoc] at hrest

/-- Every call keeps the table in line with the account. -/
theorem after (h : Keeps t account) (call : Call) :
    Keeps (t.after call) (account ++ t.entered call) := by
  cases call with
  | intern name => exact h.intern name
  | lookup words => exact h.lookup words
  | query name => rwa [entered, List.append_nil]

theorem afterAll (h : Keeps t account) (calls : List Call) :
    Keeps (t.afterAll calls) (account ++ t.account calls) := by
  induction calls generalizing t account with
  | nil => rwa [NameTable.account, List.append_nil]
  | cons call calls ih =>
    have hrest := ih (h.after call)
    rwa [List.append_assoc] at hrest

end Keeps

/-! ## Later calls -/

theorem names_isPrefix_after (t : NameTable) (call : Call) :
    t.names <+: (t.after call).names := by
  cases call with
  | intern name => exact t.names_isPrefix_intern name
  | lookup words => exact t.names_isPrefix_lookup words
  | query name => exact List.prefix_rfl

theorem names_isPrefix_afterAll (t : NameTable) (calls : List Call) :
    t.names <+: (t.afterAll calls).names := by
  induction calls generalizing t with
  | nil => exact List.prefix_rfl
  | cons call calls ih => exact (t.names_isPrefix_after call).trans (ih _)

end NameTable

/-! ## Tables with an index -/

namespace IndexedTable

open NameTable (Call)

def after (x : IndexedTable) : Call → IndexedTable
  | .intern name => (x.intern name).2
  | .lookup words => (x.lookup words).2
  | .query _ => x

def afterAll (x : IndexedTable) (calls : List Call) : IndexedTable := calls.foldl after x

namespace Agrees

variable {x : IndexedTable} {t : NameTable}

theorem after (h : Agrees x t) (call : Call) : Agrees (x.after call) (t.after call) := by
  cases call with
  | intern name => exact (h.intern name).2
  | lookup words => exact (h.lookup words).2
  | query name => exact h

theorem afterAll (h : Agrees x t) (calls : List Call) :
    Agrees (x.afterAll calls) (t.afterAll calls) := by
  induction calls generalizing x t with
  | nil => exact h
  | cons call calls ih => exact ih (h.after call)

end Agrees

end IndexedTable

/-! ## The numbering -/

namespace NameTable

variable {t : NameTable} {account : List (String × NameId)}

/-- The names of an account and their numbers, as the table has them. -/
structure Numbers (t : NameTable) (account : List (String × NameId)) : Prop where
  /-- Names were given the same number just if they are the same. -/
  same_iff : ∀ e ∈ account, ∀ e' ∈ account, e.2 = e'.2 ↔ e.1 = e'.1
  /-- The numbers, in the order in which they first appear, count from zero on. -/
  ids : (account.map (·.2)).eraseDups = (List.range t.size).map NameId.mk
  /-- They count the names in the order in which these first appear. -/
  names : (account.map (·.1)).eraseDups = t.names
  query?_iff : ∀ name id, t.query? name = some id ↔ (name, id) ∈ account
  nameOf_iff : ∀ name id, t.nameOf id = .ok name ↔ (name, id) ∈ account
  /-- Each number below the size stands for a name, which is not entered again. -/
  intern : ∀ i < t.size, ∃ name, t.nameOf ⟨i⟩ = .ok name ∧ t.intern name = (⟨i⟩, t)

theorem Keeps.numbers (h : Keeps t account) : Numbers t account where
  same_iff := by
    rintro ⟨name, id⟩ he ⟨name', id'⟩ he'
    have hquery : t.query? name = some id := h.query? _ he
    have hquery' : t.query? name' = some id' := h.query? _ he'
    constructor
    · rintro rfl
      exact query?_inj hquery hquery'
    · rintro rfl
      exact Option.some.inj (hquery.symm.trans hquery')
  ids := h.ids
  names := h.names
  query?_iff _ _ := h.query?_iff
  nameOf_iff _ _ := h.nameOf_iff
  intern i hi := by
    have hgiven : ⟨i⟩ ∈ account.map (·.2) := h.mem_ids_iff.2 hi
    obtain ⟨⟨name, _⟩, hmem, rfl⟩ := List.mem_map.1 hgiven
    exact ⟨name, h.nameOf_iff.2 hmem, intern_of_query? (h.query?_iff.2 hmem)⟩

/-- **Numbering.** Whatever a table has been asked since it was empty, names have numbers of their
own, which count from zero on in the order of first appearance, and names and numbers lead to each
other. A name that is entered next can be read off its number, words that are looked up are given
the numbers that they would get one by one, and no later call changes a number or a name. A table
with an index gives the same answers, and its index is the inverse of its list of names. -/
theorem calls_number (calls : List Call) :
    let t := empty.afterAll calls
    let x := IndexedTable.empty.afterAll calls
    Numbers t (empty.account calls) ∧
      (∀ name, (t.intern name).2.nameOf (t.intern name).1 = .ok name ∧ t.after (.query name) = t) ∧
      (∀ words, (t.account (words.map .intern)).unzip = (words, (t.lookup words).1) ∧
        t.afterAll (words.map .intern) = (t.lookup words).2) ∧
      (∀ more,
        (∀ name id, t.query? name = some id →
          (t.afterAll more).query? name = some id ∧
            (t.afterAll more).intern name = (id, t.afterAll more)) ∧
        ∀ id name, t.nameOf id = .ok name → (t.afterAll more).nameOf id = .ok name) ∧
      x.Answers t ∧
      ∀ (name : String) (id : NameId), x.ids[name]? = some id ↔ x.names[id.index]? = some name := by
  intro t x
  have hkeeps : Keeps t (empty.account calls) := Keeps.empty.afterAll calls
  have hagrees : x.Agrees t := IndexedTable.Agrees.empty.afterAll calls
  have hlater (more : List Call) {name : String} {id : NameId} (hq : t.query? name = some id) :
      (t.afterAll more).query? name = some id :=
    query?_of_isPrefix (t.names_isPrefix_afterAll more) hq
  refine ⟨hkeeps.numbers, fun name => ⟨nameOf_of_query? (t.query?_intern name), rfl⟩,
    fun words => ⟨t.account_intern words, t.afterAll_intern words⟩,
    fun more => ⟨fun name id hq => ?_, fun id name hname => ?_⟩, hagrees.answers, fun name id => ?_⟩
  · exact ⟨hlater more hq, intern_of_query? (hlater more hq)⟩
  · exact nameOf_of_query? (hlater more (hkeeps.query?_iff.2 (hkeeps.nameOf_iff.1 hname)))
  · rw [hagrees.ids, ← Array.getElem?_toList, hagrees.names]
    exact ⟨getElem?_of_query?, hkeeps.query?_of_getElem?⟩

-- A word that comes again keeps its number, and a query gives out none.
example :
    (empty.account [.lookup ["G1", "G2", "G1"], .query "G3", .intern "G2", .intern "G3"]).map
      (·.2.index) = [0, 1, 0, 1, 2] := by decide

end NameTable

end Breadboard
