import Breadboard.Proofs.Definition.Reads

/-!
# Scanning

What the readers of definitions rely on in the tokens of a text.

* `numbered_of_mem_tokensFrom`: names have the numbers that the table keeps when all is read.
* `names_tokensFrom`: the table has all words entered, from left to right.
-/
namespace Breadboard.Definition

/-- The token of a word is the symbol of that word. -/
theorem exists_symbol?_wordKind (afterSquare : Bool) (word : String) (id : NameId) (p : Position) :
    ∃ s, (Token.mk (wordKind afterSquare word id) word p).symbol? = some s ∧
      s.word? = some word := by
  unfold wordKind
  split
  · rename_i s hs
    refine ⟨.heading s, rfl, ?_⟩
    split at hs
    · exact congrArg some (Section.heading_of_ofHeading? hs)
    · cases hs
  · split
    · rename_i kind hkind
      exact ⟨.keyword kind, rfl, congrArg some (DeviceKind.keyword_of_ofKeyword? hkind)⟩
    · exact ⟨.name word, rfl, rfl⟩

theorem id_of_wordKind {afterSquare : Bool} {word : String} {id id' : NameId}
    (h : wordKind afterSquare word id = .name id') : id' = id := by
  unfold wordKind at h
  split at h
  · cases h
  · split at h <;> cases h
    rfl

/-- Each token but the end of the file has a symbol. -/
theorem isSome_symbol?_of_mem_tokensFrom (names : NameTable) (afterSquare : Bool)
    (pieces : List (Position × Lexeme)) :
    ∀ t ∈ (tokensFrom names afterSquare pieces).1, t.symbol?.isSome := by
  fun_induction tokensFrom names afterSquare pieces with
  | case1 => simp
  | case2 names afterSquare p text rest word id names' hintern tokens names'' hrest ih =>
    obtain ⟨s, hs, -⟩ := exists_symbol?_wordKind afterSquare word id p
    rw [hrest] at ih
    exact List.forall_mem_cons.2 ⟨by rw [hs]; rfl, ih⟩
  | case3 names afterSquare p digits rest tokens names' hrest ih =>
    rw [hrest] at ih
    exact List.forall_mem_cons.2 ⟨rfl, ih⟩
  | case4 names afterSquare p m rest tokens names' hrest ih =>
    rw [hrest] at ih
    exact List.forall_mem_cons.2 ⟨rfl, ih⟩
  | case5 names afterSquare l rest _ _ _ ih => exact ih

/-- The table has all words entered, from left to right. -/
theorem names_tokensFrom (names : NameTable) (afterSquare : Bool)
    (pieces : List (Position × Lexeme)) :
    (tokensFrom names afterSquare pieces).2 =
      (names.lookup (((tokensFrom names afterSquare pieces).1.filterMap Token.symbol?).filterMap
        Symbol.word?)).2 := by
  fun_induction tokensFrom names afterSquare pieces with
  | case1 => rfl
  | case2 names afterSquare p text rest word id names' hintern tokens names'' hrest ih =>
    obtain ⟨s, hs, hword⟩ := exists_symbol?_wordKind afterSquare word id p
    rw [hrest] at ih
    rw [List.filterMap_cons_some hs, List.filterMap_cons_some hword, NameTable.lookup, hintern]
    exact ih
  | case3 names afterSquare p digits rest tokens names' hrest ih =>
    rw [hrest] at ih
    exact ih
  | case4 names afterSquare p m rest tokens names' hrest ih =>
    rw [hrest] at ih
    exact ih
  | case5 names afterSquare l rest _ _ _ ih => exact ih

/-- Names have the numbers that the table keeps when all is read. -/
theorem numbered_of_mem_tokensFrom (names : NameTable) (afterSquare : Bool)
    (pieces : List (Position × Lexeme)) :
    ∀ t ∈ (tokensFrom names afterSquare pieces).1,
      t.Numbered (tokensFrom names afterSquare pieces).2 := by
  fun_induction tokensFrom names afterSquare pieces with
  | case1 => simp
  | case2 names afterSquare p text rest word id names' hintern tokens names'' hrest ih =>
    have hgrown := names_tokensFrom names' false rest
    rw [hrest] at ih hgrown
    refine List.forall_mem_cons.2 ⟨fun id' hid' => ?_, ih⟩
    obtain rfl := id_of_wordKind hid'
    have hword := names.query?_intern word
    rw [hintern] at hword
    refine NameTable.query?_of_isPrefix ?_ hword
    rw [show names'' = _ from hgrown]
    exact names'.names_isPrefix_lookup _
  | case3 names afterSquare p digits rest tokens names' hrest ih =>
    rw [hrest] at ih
    exact List.forall_mem_cons.2 ⟨(fun _ hid => by cases hid), ih⟩
  | case4 names afterSquare p m rest tokens names' hrest ih =>
    rw [hrest] at ih
    exact List.forall_mem_cons.2 ⟨(fun _ hid => by cases hid), ih⟩
  | case5 names afterSquare l rest _ _ _ ih => exact ih

/-- The tokens of a text spell its symbols. -/
theorem spelled_tokens_iff {source : String} {ss : List Symbol} :
    Spelled (scan .empty source.toList).tokens ss ↔ symbols source = ss := by
  have hall : (scan .empty source.toList).tokens.map Token.symbol? =
      (symbols source).map some := by
    unfold symbols
    generalize hts : (scan .empty source.toList).tokens = ts
    have hsome : ∀ t ∈ ts, t.symbol?.isSome :=
      hts ▸ isSome_symbol?_of_mem_tokensFrom .empty false _
    clear hts
    induction ts with
    | nil => rfl
    | cons t ts ih =>
      obtain ⟨ht, hrest⟩ := List.forall_mem_cons.1 hsome
      obtain ⟨s, hs⟩ := Option.isSome_iff_exists.1 ht
      rw [List.filterMap_cons_some hs, List.map_cons, List.map_cons, hs, ih hrest]
  rw [Spelled, hall]
  exact (List.map_injective_iff.2 (fun _ _ => Option.some.inj)).eq_iff

end Breadboard.Definition
