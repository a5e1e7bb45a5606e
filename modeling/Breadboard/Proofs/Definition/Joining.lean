import Breadboard.Proofs.Definition.Places

/-!
# Texts put together

What a text that is put together of two is scanned as. The lexemes of the two are those of the whole
if the last one of the first text does not go on in the second one; it never goes on over a line
feed, and over a semicolon only if it is a comment.

* `lexemes_append`: the lexemes of two texts one after the other.
* `tokensFrom_append`: the tokens of lexemes one after the other.
* `scan_semicolon`, `scan_newline`: a text with and without a semicolon at the end of a line.
-/
namespace Breadboard.Definition

open Breadboard.Text

/-! ## Lexemes -/

variable {l : Lexeme} {ls ls' : List Lexeme} {text text' : List Char}

/-- What fits the beginning of a text fits the text, however it goes on. -/
theorem Lexeme.Fits.append (h : l.Fits text) (hne : text ≠ []) (more : List Char) :
    l.Fits (text ++ more) := by
  obtain ⟨c, rest, rfl⟩ := List.exists_cons_of_ne_nil hne
  cases l with
  | word | number | comment | mark | blank | stray => exact h

theorem Splits.ne_nil (h : Splits ls text) (hne : ls ≠ []) : text ≠ [] := by
  cases h with
  | nil => exact absurd rfl hne
  | cons hfits _ => exact List.append_ne_nil_of_left_ne_nil hfits.chars_ne_nil _

theorem Splits.append (h : Splits ls text) (h' : Splits ls' text')
    (hlast : ∀ l ∈ ls.getLast?, l.Fits [] → l.Fits text') :
    Splits (ls ++ ls') (text ++ text') := by
  induction h with
  | nil => exact h'
  | @cons l ls after hfits hrest ih =>
    rw [List.append_assoc]
    by_cases hls : ls = []
    · subst hls
      cases hrest
      exact .cons (hlast l rfl hfits) h'
    · refine .cons (hfits.append (hrest.ne_nil hls) text') (ih fun l' hl' => hlast l' ?_)
      rwa [List.getLast?_cons_of_ne_nil hls]

theorem lexemes_append (text text' : List Char)
    (hlast : ∀ l ∈ (lexemes text).getLast?, l.Fits [] → l.Fits text') :
    lexemes (text ++ text') = lexemes text ++ lexemes text' :=
  (splits_iff.1 ((splits_lexemes text).append (splits_lexemes text') hlast)).symm

theorem lexemes_cons (h : l.Fits text) : lexemes (l.chars ++ text) = l :: lexemes text :=
  (splits_iff.1 (.cons h (splits_lexemes text))).symm

theorem lexemes_newline_cons (rest : List Char) :
    lexemes ('\n' :: rest) = .blank '\n' :: lexemes rest :=
  lexemes_cons (l := .blank '\n') (rfl : isBlank '\n' = true)

theorem lexemes_newline (text rest : List Char) :
    lexemes (text ++ '\n' :: rest) = lexemes text ++ .blank '\n' :: lexemes rest := by
  rw [lexemes_append, lexemes_newline_cons]
  intro l _ hfits
  cases l with
  | word => exact ⟨hfits.1, hfits.2.1, by simp; decide +kernel⟩
  | number => exact ⟨hfits.1, hfits.2.1, by simp⟩
  | comment => exact ⟨hfits.1, by simp⟩
  | mark | blank | stray => exact hfits

/-- A semicolon ends every lexeme but a comment. -/
theorem lexemes_semicolon {text : List Char} (rest : List Char)
    (hcomment : ∀ comment, (lexemes text).getLast? ≠ some (.comment comment)) :
    lexemes (text ++ ';' :: rest) = lexemes text ++ .mark .semicolon :: lexemes rest := by
  have hmark : lexemes (';' :: rest) = .mark .semicolon :: lexemes rest :=
    lexemes_cons (l := .mark .semicolon) trivial
  rw [lexemes_append, hmark]
  intro l hl hfits
  cases l with
  | word => exact ⟨hfits.1, hfits.2.1, by simp; decide +kernel⟩
  | number => exact ⟨hfits.1, hfits.2.1, by simp⟩
  | comment comment => exact absurd hl (hcomment comment)
  | mark | blank | stray => exact hfits

theorem placed_append (p : Position) (ls ls' : List Lexeme) :
    placed p (ls ++ ls') = placed p ls ++ placed (p.after (ls.flatMap Lexeme.chars)) ls' := by
  induction ls generalizing p with
  | nil => rfl
  | cons l ls ih => simp [placed, ih, Position.after_append]

/-! ## Tokens -/

/-- Whether a word behind some tokens is right after an opening square bracket. -/
def opened (afterSquare : Bool) (ts : List Token) : Bool :=
  (ts.getLast?.map (·.isMark .openSquare)).getD afterSquare

theorem opened_cons (afterSquare : Bool) (t : Token) (ts : List Token) :
    opened afterSquare (t :: ts) = opened (t.isMark .openSquare) ts := by
  cases h : ts.getLast? with
  | none =>
    obtain rfl := List.getLast?_eq_none_iff.1 h
    rfl
  | some u => simp [opened, List.getLast?_cons, h]

theorem tokensFrom_append (names : NameTable) (afterSquare : Bool)
    (pieces pieces' : List (Position × Lexeme)) :
    let before := tokensFrom names afterSquare pieces
    let behind := tokensFrom before.2 (opened afterSquare before.1) pieces'
    tokensFrom names afterSquare (pieces ++ pieces') = (before.1 ++ behind.1, behind.2) := by
  induction pieces generalizing names afterSquare with
  | nil => rfl
  | cons piece pieces ih =>
    obtain ⟨p, l⟩ := piece
    cases l with
    | word text =>
      simp only [List.cons_append, tokensFrom, ih, opened_cons, isMark_wordKind]
    | number digits =>
      simp only [List.cons_append, tokensFrom, ih, opened_cons]
      rfl
    | mark m =>
      simp only [List.cons_append, tokensFrom, ih, opened_cons]
      simp [Token.isMark]
    | blank | comment | stray => simp only [List.cons_append, tokensFrom, ih]

/-! ## A semicolon at the end of a line -/

theorem Position.line_le_of_le {p q : Position} (h : p ≤ q) : p.line ≤ q.line := by
  rw [le_iff] at h
  omega

theorem Position.after_newline (p : Position) (rest : List Char) :
    p.after ('\n' :: rest) = Position.after { line := p.line + 1 } rest := rfl

theorem Position.after_semicolon_newline (p : Position) (rest : List Char) :
    p.after (';' :: '\n' :: rest) = Position.after { line := p.line + 1 } rest := rfl

section

variable (names : NameTable) (before behind : List Char)

/-- What a text is scanned as, given its lexemes with their places. -/
theorem scan_eq {text : List Char} {pieces : List (Position × Lexeme)}
    (h : placed {} (lexemes text) = pieces) :
    scan names text =
      ⟨(tokensFrom names false pieces).1, ⟨.endOfFile, "", Position.after {} text⟩,
        placedStrays pieces, (tokensFrom names false pieces).2⟩ := by
  subst h
  rfl

/-- The lexemes on the lines behind a text. -/
def linesBehind : List (Position × Lexeme) :=
  placed { line := (Position.after {} before).line + 1 } (lexemes behind)

/-- The tokens on the lines behind a text, and the name table with all words entered. -/
def tokensBehind : List Token × NameTable :=
  tokensFrom (scan names before).names false (linesBehind before behind)

/-- The scan of a text with some tokens on its last line. -/
def scanWith (ts : List Token) : Scan where
  tokens := (scan names before).tokens ++ ts ++ (tokensBehind names before behind).1
  finish :=
    ⟨.endOfFile, "", Position.after { line := (Position.after {} before).line + 1 } behind⟩
  strays := (scan names before).strays ++ placedStrays (linesBehind before behind)
  names := (tokensBehind names before behind).2

variable {before}

/-- A text with a semicolon at the end of one of its lines. -/
theorem scan_semicolon (hcomment : ∀ comment, (lexemes before).getLast? ≠ some (.comment comment)) :
    scan names (before ++ ';' :: '\n' :: behind) =
      scanWith names before behind
        [⟨.mark .semicolon, String.singleton ';', Position.after {} before⟩] := by
  have hpieces : placed {} (lexemes (before ++ ';' :: '\n' :: behind)) =
      placed {} (lexemes before) ++ (Position.after {} before, .mark .semicolon) ::
        ((Position.after {} before).next ';', .blank '\n') :: linesBehind before behind := by
    rw [lexemes_semicolon _ hcomment, lexemes_newline_cons, placed_append, lexemes_flatMap_chars]
    rfl
  rw [scan_eq names hpieces, tokensFrom_append, placedStrays_append, Position.after_append,
    Position.after_semicolon_newline, scanWith, List.append_assoc]
  rfl

/-- The text without the semicolon. -/
theorem scan_newline (hopened : opened false (scan names before).tokens = false) :
    scan names (before ++ '\n' :: behind) = scanWith names before behind [] := by
  have hpieces : placed {} (lexemes (before ++ '\n' :: behind)) =
      placed {} (lexemes before) ++
        (Position.after {} before, .blank '\n') :: linesBehind before behind := by
    rw [lexemes_newline, placed_append, lexemes_flatMap_chars]
    rfl
  have hopened' : opened false (tokensFrom names false (placed {} (lexemes before))).1 = false :=
    hopened
  rw [scan_eq names hpieces, tokensFrom_append, hopened', placedStrays_append,
    Position.after_append, Position.after_newline, scanWith, List.append_nil]
  rfl

/-- The tokens on the lines behind a text are on later lines than those of the text. -/
theorem line_lt_of_mem_tokensBehind {t u : Token} (ht : t ∈ (scan names before).tokens)
    (hu : u ∈ (tokensBehind names before behind).1 ++ [(scanWith names before behind []).finish]) :
    t.position.line < u.position.line := by
  have hbefore : t.position.line ≤ (Position.after {} before).line := by
    have hpairwise := pairwise_places names before
    rw [List.map_append, List.pairwise_append] at hpairwise
    exact Position.line_le_of_le
      (hpairwise.2.2 _ (List.mem_map_of_mem ht) _ (List.mem_singleton_self _)).le
  have hbehind : Position.mk ((Position.after {} before).line + 1) 0 ≤ u.position := by
    rcases List.mem_append.1 hu with hu | hu
    · have hmem := (places_tokensFrom_sublist _ _ _).subset (List.mem_map_of_mem hu)
      exact le_of_mem_placesFrom (List.mem_append_left _ hmem)
    · rw [List.mem_singleton.1 hu]
      exact Position.le_after _ behind
  exact Nat.lt_of_le_of_lt hbefore (Position.line_le_of_le hbehind)

end

end Breadboard.Definition
