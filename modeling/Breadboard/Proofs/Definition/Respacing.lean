import Breadboard.Proofs.Definition.Joining

/-!
# What stands between tokens

Blanks, comments and stray characters come between the tokens of a text and leave no trace but the
places of these. What is read of a text is thus the same for all texts that have the same words,
numbers and marks in the same order, and the shortest of them has one space between any two.

* `tokensFrom_filter_isToken`: lexemes that are no tokens are passed over.
* `tokensFrom_map_fst`: tokens have the places of their lexemes, which decide nothing else.
* `lexemes_intercalate`: one space is enough to keep two tokens apart.
* `scan_respaced`: the texts of the tokens, with single spaces between them, are scanned as the same
  tokens again.
-/
namespace Breadboard.Definition

open Breadboard.Text

/-! ## Lexemes that are passed over -/

/-- Lexemes that are no tokens are passed over. -/
theorem tokensFrom_filter_isToken (names : NameTable) (afterSquare : Bool)
    (pieces : List (Position × Lexeme)) :
    tokensFrom names afterSquare (pieces.filter (·.2.isToken)) =
      tokensFrom names afterSquare pieces := by
  induction pieces generalizing names afterSquare with
  | nil => rfl
  | cons piece pieces ih =>
    obtain ⟨p, l⟩ := piece
    cases l with
    | word | number | mark =>
      rw [List.filter_cons_of_pos rfl]
      simp only [tokensFrom, ih]
    | blank | comment | stray =>
      rw [List.filter_cons_of_neg (by simp [Lexeme.isToken])]
      exact ih names afterSquare

/-- The token at another place. -/
def Token.moved (f : Position → Position) (t : Token) : Token := { t with position := f t.position }

/-- Tokens have the places of their lexemes, which decide nothing else. -/
theorem tokensFrom_map_fst (f : Position → Position) (names : NameTable) (afterSquare : Bool)
    (pieces : List (Position × Lexeme)) :
    tokensFrom names afterSquare (pieces.map (Prod.map f id)) =
      ((tokensFrom names afterSquare pieces).1.map (Token.moved f),
        (tokensFrom names afterSquare pieces).2) := by
  induction pieces generalizing names afterSquare with
  | nil => rfl
  | cons piece pieces ih =>
    obtain ⟨p, l⟩ := piece
    rw [List.map_cons]
    cases l with
    | word | number | mark =>
      simp only [Prod.map, id, tokensFrom, ih]
      rfl
    | blank | comment | stray => exact ih names afterSquare

theorem placed_map_fst (p q : Position) (ls : List Lexeme) :
    (placed p ls).map (Prod.map (fun _ => q) id) = ls.map (q, ·) := by
  induction ls generalizing p with
  | nil => rfl
  | cons l ls ih => rw [placed, List.map_cons, ih, List.map_cons, Prod.map, id]

/-- The tokens of a text, wherever they are, are those of the lexemes that are tokens. -/
theorem tokensFrom_placed (names : NameTable) (afterSquare : Bool) (p q : Position)
    (ls : List Lexeme) :
    tokensFrom names afterSquare ((ls.filter Lexeme.isToken).map (q, ·)) =
      ((tokensFrom names afterSquare (placed p ls)).1.map (Token.moved fun _ => q),
        (tokensFrom names afterSquare (placed p ls)).2) := by
  have hfilter : (ls.filter Lexeme.isToken).map (q, ·) = (ls.map (q, ·)).filter (·.2.isToken) := by
    rw [List.filter_map]
    rfl
  rw [hfilter, tokensFrom_filter_isToken, ← placed_map_fst p q, tokensFrom_map_fst]

/-! ## Single spaces -/

/-- Whatever is before it, a token ends at a space. -/
theorem Lexeme.Fits.before_space {l : Lexeme} {after : List Char} (h : l.Fits after)
    (htoken : l.isToken = true) (rest : List Char) : l.Fits (' ' :: rest) := by
  cases l with
  | word => exact ⟨h.1, h.2.1, by simp; decide +kernel⟩
  | number => exact ⟨h.1, h.2.1, by simp⟩
  | mark => trivial
  | blank | comment | stray => cases htoken

theorem Lexeme.Fits.at_end {l : Lexeme} {after : List Char} (h : l.Fits after) : l.Fits [] := by
  cases l with
  | word => exact ⟨h.1, h.2.1, by simp⟩
  | number => exact ⟨h.1, h.2.1, by simp⟩
  | comment => exact ⟨h.1, by simp⟩
  | mark | blank | stray => exact h

/-- One space is enough to keep two tokens apart. -/
theorem splits_intercalate {ls : List Lexeme} (hfits : ∀ l ∈ ls, ∃ after, l.Fits after)
    (htoken : ∀ l ∈ ls, l.isToken = true) :
    Splits (ls.intersperse (.blank ' ')) ([' '].intercalate (ls.map Lexeme.chars)) := by
  induction ls with
  | nil => exact .nil
  | cons l ls ih =>
    obtain ⟨⟨after, hl⟩, hfits⟩ := List.forall_mem_cons.1 hfits
    obtain ⟨hltoken, htoken⟩ := List.forall_mem_cons.1 htoken
    have hrest := ih hfits htoken
    cases ls with
    | nil =>
      have hlast : Splits [l] (l.chars ++ []) := .cons hl.at_end .nil
      simpa using hlast
    | cons l' ls =>
      have hspace : Splits (.blank ' ' :: (l' :: ls).intersperse (.blank ' '))
          (' ' :: [' '].intercalate ((l' :: ls).map Lexeme.chars)) :=
        .cons (l := .blank ' ') (rfl : isBlank ' ' = true) hrest
      have hall := Splits.cons (hl.before_space hltoken _) hspace
      simpa [List.intercalate] using hall

theorem lexemes_intercalate {ls : List Lexeme} (hfits : ∀ l ∈ ls, ∃ after, l.Fits after)
    (htoken : ∀ l ∈ ls, l.isToken = true) :
    lexemes ([' '].intercalate (ls.map Lexeme.chars)) = ls.intersperse (.blank ' ') :=
  (splits_iff.1 (splits_intercalate hfits htoken)).symm

theorem filter_intersperse {ls : List Lexeme} (htoken : ∀ l ∈ ls, l.isToken = true) :
    (ls.intersperse (.blank ' ')).filter Lexeme.isToken = ls := by
  induction ls with
  | nil => rfl
  | cons l ls ih =>
    obtain ⟨hl, htoken⟩ := List.forall_mem_cons.1 htoken
    have hspace : (Lexeme.blank ' ').isToken = false := rfl
    cases ls with
    | nil => simp [hl]
    | cons l' ls =>
      rw [List.intersperse_cons_cons, List.filter_cons_of_pos hl,
        List.filter_cons_of_neg (by simp [hspace]), ih htoken]

theorem stray_notMem_intersperse {ls : List Lexeme} (htoken : ∀ l ∈ ls, l.isToken = true)
    (c : Char) : .stray c ∉ ls.intersperse (.blank ' ') := by
  induction ls with
  | nil => exact List.not_mem_nil
  | cons l ls ih =>
    obtain ⟨hl, htoken⟩ := List.forall_mem_cons.1 htoken
    have hne : .stray c ≠ l := by
      rintro rfl
      cases hl
    cases ls with
    | nil => simpa using hne
    | cons l' ls =>
      rw [List.intersperse_cons_cons, List.mem_cons, List.mem_cons]
      rintro (hc | hc | hc)
      · exact hne hc
      · cases hc
      · exact ih htoken hc

theorem texts_tokensFrom (names : NameTable) (afterSquare : Bool) (p : Position)
    (ls : List Lexeme) :
    (tokensFrom names afterSquare (placed p ls)).1.map (·.text.toList) =
      (ls.filter Lexeme.isToken).map Lexeme.chars := by
  induction ls generalizing names afterSquare p with
  | nil => rfl
  | cons l ls ih =>
    cases l with
    | word | number | mark =>
      rw [List.filter_cons_of_pos rfl]
      simp only [placed, tokensFrom, List.map_cons, ih, Lexeme.chars, String.toList_ofList,
        String.toList_singleton]
    | blank | comment | stray =>
      rw [List.filter_cons_of_neg (by simp [Lexeme.isToken])]
      exact ih _ _ _

/-! ## Whole texts -/

/-- **Single spaces.** The texts of the tokens of a text, with single spaces between them, are
scanned without diagnostics as tokens of the same kinds, with the same texts and numbers, and the
same names are entered. -/
theorem scan_respaced (names : NameTable) (source : List Char) :
    let scanned := scan names source
    let respaced := scan names (" ".intercalate (scanned.tokens.map (·.text))).toList
    respaced.issues = [] ∧
    respaced.tokens.map (fun t => (t.kind, t.text, t.id?)) =
      scanned.tokens.map (fun t => (t.kind, t.text, t.id?)) ∧
    respaced.names = scanned.names := by
  intro scanned respaced
  set ls := (lexemes source).filter Lexeme.isToken with hls
  have htoken : ∀ l ∈ ls, l.isToken = true := fun l hl => (List.mem_filter.1 hl).2
  have hfits : ∀ l ∈ ls, ∃ after, l.Fits after := fun l hl =>
    (splits_lexemes source).exists_fits l (List.mem_filter.1 hl).1
  have htexts : scanned.tokens.map (·.text.toList) = ls.map Lexeme.chars :=
    texts_tokensFrom names false {} (lexemes source)
  have hlexemes : lexemes (" ".intercalate (scanned.tokens.map (·.text))).toList =
      ls.intersperse (.blank ' ') := by
    rw [String.toList_intercalate, List.map_map, ← lexemes_intercalate hfits htoken, ← htexts]
    rfl
  have hmoved := tokensFrom_placed names false {} {} (lexemes source)
  have hmoved' := tokensFrom_placed names false {} {} (ls.intersperse (.blank ' '))
  rw [filter_intersperse htoken, ← hlexemes, hls, hmoved] at hmoved'
  obtain ⟨htokens, hnames⟩ := Prod.mk.inj hmoved'
  refine ⟨?_, ?_, hnames.symm⟩
  · rw [Scan.issues, List.map_eq_nil_iff]
    refine placedStrays_eq_nil_iff.2 fun c hc => ?_
    rw [hlexemes] at hc
    exact stray_notMem_intersperse htoken c hc
  · have hread : ∀ ts : List Token, ts.map (fun t => (t.kind, t.text, t.id?)) =
        (ts.map (Token.moved fun _ => {})).map fun t => (t.kind, t.text, t.id?) := by
      intro ts
      rw [List.map_map]
      rfl
    rw [hread respaced.tokens, hread scanned.tokens]
    exact congrArg _ htokens.symm

end Breadboard.Definition
