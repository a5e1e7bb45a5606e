import Breadboard.Proofs.Definition.Elaboration
import Breadboard.Proofs.Definition.Tokens

/-!
# The order of places

Places are ordered by line, then by column: the order in which a text is read.

* `Position.lt_after`: the place behind a text that is not empty is a later one.
* `pairwise_places`: of the tokens of a scan, each stands behind the one before it, and the end of the
  file behind all of them.
* `pairwise_strays`: the characters without a place in a definition stand one behind the other.
-/
namespace Breadboard.Definition

namespace Position

variable {p q : Position}

instance : LE Position := ⟨fun p q => p.line < q.line ∨ p.line = q.line ∧ p.column ≤ q.column⟩

instance : LT Position := ⟨fun p q => p.line < q.line ∨ p.line = q.line ∧ p.column < q.column⟩

theorem le_iff : p ≤ q ↔ p.line < q.line ∨ p.line = q.line ∧ p.column ≤ q.column := Iff.rfl

theorem lt_iff : p < q ↔ p.line < q.line ∨ p.line = q.line ∧ p.column < q.column := Iff.rfl

instance : DecidableLE Position := fun p q =>
  inferInstanceAs (Decidable (p.line < q.line ∨ p.line = q.line ∧ p.column ≤ q.column))

instance : DecidableLT Position := fun p q =>
  inferInstanceAs (Decidable (p.line < q.line ∨ p.line = q.line ∧ p.column < q.column))

instance : Preorder Position where
  le_refl p := le_iff.2 (by omega)
  le_trans p q r hpq hqr := by
    rw [le_iff] at *
    omega
  lt_iff_le_not_ge p q := by
    rw [lt_iff, le_iff, le_iff]
    omega

theorem lt_next (p : Position) (c : Char) : p < p.next c := by
  unfold next
  split
  · exact .inl p.line.lt_succ_self
  · exact .inr ⟨rfl, p.column.lt_succ_self⟩

theorem le_after (p : Position) (cs : List Char) : p ≤ p.after cs := by
  induction cs generalizing p with
  | nil => exact le_refl p
  | cons c cs ih => exact (p.lt_next c).le.trans (ih _)

theorem lt_after {cs : List Char} (p : Position) (h : cs ≠ []) : p < p.after cs := by
  obtain ⟨c, rest, rfl⟩ := List.exists_cons_of_ne_nil h
  exact (p.lt_next c).trans_le (le_after _ rest)

end Position

/-! ## The places of lexemes -/

theorem Lexeme.Fits.chars_ne_nil {l : Lexeme} {after : List Char} (h : l.Fits after) :
    l.chars ≠ [] := by
  cases l with
  | word text =>
    obtain ⟨⟨c, rest, rfl, -⟩, -⟩ := h
    exact List.cons_ne_nil c rest
  | number digits => exact h.1
  | comment text =>
    obtain ⟨⟨rest, rfl, -⟩, -⟩ := h
    exact List.cons_ne_nil '#' rest
  | mark | blank | stray => exact List.cons_ne_nil _ _

/-- The places of lexemes, and the end of the text that they are. -/
def placesFrom (p : Position) (ls : List Lexeme) : List Position :=
  (placed p ls).map Prod.fst ++ [p.after (ls.flatMap Lexeme.chars)]

theorem placesFrom_cons (p : Position) (l : Lexeme) (ls : List Lexeme) :
    placesFrom p (l :: ls) = p :: placesFrom (p.after l.chars) ls := by
  rw [placesFrom, placed, List.flatMap_cons, Position.after_append]
  rfl

theorem le_of_mem_placesFrom {p q : Position} {ls : List Lexeme} (h : q ∈ placesFrom p ls) :
    p ≤ q := by
  induction ls generalizing p with
  | nil => rw [List.mem_singleton.1 h]; exact le_refl p
  | cons l ls ih =>
    rw [placesFrom_cons] at h
    rcases List.mem_cons.1 h with rfl | h
    · exact le_refl _
    · exact (p.le_after l.chars).trans (ih h)

/-- Lexemes stand one behind the other, and all of them before the end. -/
theorem pairwise_placesFrom {ls : List Lexeme} (p : Position) (h : ∀ l ∈ ls, l.chars ≠ []) :
    (placesFrom p ls).Pairwise (· < ·) := by
  induction ls generalizing p with
  | nil => exact List.pairwise_singleton _ _
  | cons l ls ih =>
    obtain ⟨hl, hls⟩ := List.forall_mem_cons.1 h
    rw [placesFrom_cons]
    exact List.pairwise_cons.2
      ⟨fun q hq => (p.lt_after hl).trans_le (le_of_mem_placesFrom hq), ih _ hls⟩

/-- Tokens are left of lexemes without a change of their order. -/
theorem places_tokensFrom_sublist (names : NameTable) (afterSquare : Bool)
    (pieces : List (Position × Lexeme)) :
    ((tokensFrom names afterSquare pieces).1.map (·.position)).Sublist (pieces.map Prod.fst) := by
  fun_induction tokensFrom names afterSquare pieces with
  | case1 => exact List.Sublist.refl []
  | case2 _ _ _ _ _ _ _ _ _ _ _ hrest ih
  | case3 _ _ _ _ _ _ _ hrest ih
  | case4 _ _ _ _ _ _ _ hrest ih =>
    rw [hrest] at ih
    exact ih.cons_cons _
  | case5 _ _ _ _ _ _ _ ih => exact ih.cons _

theorem places_placedStrays_sublist (pieces : List (Position × Lexeme)) :
    ((placedStrays pieces).map Prod.fst).Sublist (pieces.map Prod.fst) := by
  induction pieces with
  | nil => exact List.Sublist.refl []
  | cons piece rest ih =>
    obtain ⟨p, l⟩ := piece
    cases l with
    | stray c => exact ih.cons_cons p
    | word | number | mark | blank | comment => exact ih.cons p

/-! ## The places of a scan -/

variable (names : NameTable) (source : List Char)

theorem pairwise_lexemes : (placesFrom {} (lexemes source)).Pairwise (· < ·) :=
  pairwise_placesFrom {} fun l hl => by
    obtain ⟨after, hfits⟩ := (splits_lexemes source).exists_fits l hl
    exact hfits.chars_ne_nil

/-- Each token stands behind the one before it, and the end of the file behind all of them. -/
theorem pairwise_places :
    (((scan names source).tokens ++ [(scan names source).finish]).map (·.position)).Pairwise
      (· < ·) := by
  have hfinish : (scan names source).finish.position =
      Position.after {} ((lexemes source).flatMap Lexeme.chars) := by
    rw [lexemes_flatMap_chars]
    rfl
  rw [List.map_append, List.map_singleton, hfinish]
  exact (pairwise_lexemes source).sublist
    ((places_tokensFrom_sublist names false _).append (List.Sublist.refl _))

/-- The characters without a place in a definition stand one behind the other. -/
theorem pairwise_strays : ((scan names source).issues.map (·.position)).Pairwise (· < ·) := by
  have hplaces : (scan names source).issues.map (·.position) =
      (placedStrays (placed {} (lexemes source))).map Prod.fst := by
    rw [Scan.issues, List.map_map]
    rfl
  rw [hplaces]
  exact (List.pairwise_append.1 (pairwise_lexemes source)).1.sublist
    (places_placedStrays_sublist _)

end Breadboard.Definition
