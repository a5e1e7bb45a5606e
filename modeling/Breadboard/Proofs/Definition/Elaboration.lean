import Breadboard.Proofs.Definition.Acceptance
import Breadboard.Proofs.Definition.Lexemes

/-!
# Elaboration

What an accepted text is turned into. It is a well-formed definition, and all that comes of reading
it onto an empty board is a matter of the definition: the board, and the inputs that are told of
because nothing drives them.

* `exists_tree_of_accepted`, `readOnto_of_derives`: an accepted text is a well-formed definition,
  and the reading is the one of that definition.
* `dot_notMem_of_mem_names`: no name that is entered has a dot in it.
* `SyntaxTree.WellFormed.mem_names`: the names of the parts are entered.
-/
namespace Breadboard.Definition

variable {source : String} {limit passLimit : Nat} {t : SyntaxTree}

/-- What comes of a well-formed definition. -/
def SyntaxTree.reading (t : SyntaxTree) (passLimit : Nat) : Reading where
  board := t.board passLimit
  diagnostics := []
  notices := (t.board passLimit).circuit.undriven.filterMap (undrivenNotice? t.names)

/-- A text that is accepted is a well-formed definition. -/
theorem exists_tree_of_accepted
    (h : (readOnto (.empty passLimit) limit source).accepted = true) :
    ∃ t : SyntaxTree, t.Derives source ∧ t.WellFormed limit := by
  have hissues := List.map_eq_nil_iff.1 (List.isEmpty_iff.1 h)
  obtain ⟨hstrays, hread⟩ := List.append_eq_nil_iff.1 hissues
  obtain ⟨t, ht, hspelled⟩ := readFile_sound rfl (numbered_of_mem_tokensFrom .empty false _) hread
  exact ⟨t, ⟨List.map_eq_nil_iff.1 hstrays, spelled_tokens_iff.1 hspelled⟩, ht⟩

/-- A well-formed definition is read without issues, onto the board that it describes. -/
theorem readOnto_of_derives (passLimit : Nat) (h : t.Derives source) (ht : t.WellFormed limit) :
    readOnto (.empty passLimit) limit source = t.reading passLimit := by
  have hread : readFile limit (scan .empty source.toList).tokens (scan .empty source.toList).finish
      { circuit := (Board.empty passLimit).circuit, probes := (Board.empty passLimit).probes } =
        t.layout.draft (scan .empty source.toList).names passLimit :=
    readFile_complete passLimit rfl (numbered_of_mem_tokensFrom .empty false _) ht
      (spelled_tokens_iff.2 h.symbols)
  have hstrays : (scan .empty source.toList).issues = [] := List.map_eq_nil_iff.2 h.strays
  simp only [readOnto, show (Board.empty passLimit).names = .empty from rfl, hstrays, hread,
    names_scan h]
  rfl

/-! ## Names -/

/-- What a reading of lexemes enters are the words among them. -/
theorem exists_word_of_mem_names (names : NameTable) (afterSquare : Bool)
    (pieces : List (Position × Lexeme)) :
    ∀ name ∈ (tokensFrom names afterSquare pieces).2.names,
      name ∈ names.names ∨
        ∃ p text, (p, Lexeme.word text) ∈ pieces ∧ String.ofList text = name := by
  fun_induction tokensFrom names afterSquare pieces with
  | case1 names => exact fun name hname => .inl hname
  | case2 names afterSquare p text rest word id names' hintern tokens names'' hrest ih =>
    intro name hname
    rw [hrest] at ih
    rcases ih name hname with hname | ⟨q, text', hmem, rfl⟩
    · have hentered : name ∈ (names.intern word).2.names := by rwa [hintern]
      rcases NameTable.mem_names_intern_iff.1 hentered with hname | rfl
      · exact .inl hname
      · exact .inr ⟨p, text, List.mem_cons_self, rfl⟩
    · exact .inr ⟨q, text', List.mem_cons_of_mem _ hmem, rfl⟩
  | case3 names afterSquare p digits rest tokens names' hrest ih
  | case4 names afterSquare p m rest tokens names' hrest ih =>
    intro name hname
    rw [hrest] at ih
    rcases ih name hname with hname | ⟨q, text, hmem, rfl⟩
    · exact .inl hname
    · exact .inr ⟨q, text, List.mem_cons_of_mem _ hmem, rfl⟩
  | case5 names afterSquare l rest _ _ _ ih =>
    intro name hname
    rcases ih name hname with hname | ⟨q, text, hmem, rfl⟩
    · exact .inl hname
    · exact .inr ⟨q, text, List.mem_cons_of_mem _ hmem, rfl⟩

theorem mem_of_mem_placed {p q : Position} {l : Lexeme} {ls : List Lexeme}
    (h : (q, l) ∈ placed p ls) : l ∈ ls := by
  induction ls generalizing p with
  | nil => cases h
  | cons l' ls ih =>
    rcases List.mem_cons.1 h with h | h
    · exact (Prod.mk.inj h).2 ▸ List.mem_cons_self
    · exact List.mem_cons_of_mem _ (ih h)

theorem Splits.exists_fits {ls : List Lexeme} {source : List Char} (h : Splits ls source) :
    ∀ l ∈ ls, ∃ after, l.Fits after := by
  induction h with
  | nil => simp
  | cons hfits _ ih => exact List.forall_mem_cons.2 ⟨⟨_, hfits⟩, ih⟩

/-- A name that is entered has been read as a word. -/
theorem exists_fits_of_mem_names (h : t.Derives source) {name : String}
    (hname : name ∈ t.names.names) : ∃ after, (Lexeme.word name.toList).Fits after := by
  rw [← names_scan h] at hname
  rcases exists_word_of_mem_names .empty false _ name hname with hnone | ⟨p, text, hmem, rfl⟩
  · cases hnone
  · rw [String.toList_ofList]
    exact (splits_lexemes source.toList).exists_fits _ (mem_of_mem_placed hmem)

theorem isAlphanumeric_dot : Text.isAlphanumeric '.' = false := by
  decide +kernel

/-- No name that is entered has a dot in it: a dot ends the word that is before it. -/
theorem dot_notMem_of_mem_names (h : t.Derives source) {name : String}
    (hname : name ∈ t.names.names) : '.' ∉ name.toList := by
  obtain ⟨after, -, hword, -⟩ := exists_fits_of_mem_names h hname
  intro hdot
  have halphanumeric := hword '.' hdot
  rw [isAlphanumeric_dot] at halphanumeric
  cases halphanumeric

namespace SyntaxTree.WellFormed

theorem names_parts (h : t.WellFormed limit) :
    t.layout.parts.map (·.name) = t.devices.flatMap (·.names) := by
  rw [layout_eq, List.map_flatMap]
  refine List.flatMap_congr fun d hd => ?_
  obtain ⟨l, hl⟩ := (h.suits d hd).accepted
  rw [DeviceDecl.parts_eq hl, List.map_map]
  simp [Function.comp_def]

theorem name_mem_symbols (h : t.WellFormed limit) {p : Part} (hp : p ∈ t.layout.parts) :
    .name p.name ∈ t.symbols := by
  have hname : p.name ∈ t.devices.flatMap (·.names) := h.names_parts ▸ List.mem_map_of_mem hp
  obtain ⟨d, hd, hname⟩ := List.mem_flatMap.1 hname
  have hline : Symbol.name p.name ∈ (Line.device d).symbols := by
    simp only [Line.symbols, DeviceDecl.symbols, List.append_assoc, List.mem_append]
    exact .inl (mem_separated hname (List.mem_singleton_self _))
  exact List.mem_flatMap.2 ⟨.devices, by decide, List.mem_append_right _
    (List.mem_flatMap.2 ⟨_, List.mem_map_of_mem hd, hline⟩)⟩

theorem mem_names (h : t.WellFormed limit) {p : Part} (hp : p ∈ t.layout.parts) :
    p.name ∈ t.names.names := by
  rw [names, NameTable.mem_names_lookup_iff]
  exact .inr (List.mem_filterMap.2 ⟨_, h.name_mem_symbols hp, rfl⟩)

end SyntaxTree.WellFormed

end Breadboard.Definition
