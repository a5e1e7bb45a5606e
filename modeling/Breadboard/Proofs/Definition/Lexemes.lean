import Breadboard.Definition.Token
import Mathlib.Data.List.TakeWhile

/-!
# How a text falls into lexemes

`Lexeme.Fits l after` says what a lexeme may be with a given text behind it: a word and a number are
as long as they can be, a comment goes on to the end of its line, and a stray character can begin
none of the others. `Splits ls source` says that such lexemes, put end to end, are the text.

* `splits_iff`: every text falls into lexemes, and in one way only.
* `Position.after_behind`: the place behind a text, by the line feeds in it and the characters since
  the last one.
-/
namespace Breadboard.Definition

open Breadboard.Text

/-! ## Classes of characters -/

/-- No code point lies in two lists of ranges if each range of the one is apart from each range of
the other. -/
theorem covers_eq_false_of_apart {rs rs' : Ranges} {n : Nat}
    (hapart : ∀ r ∈ rs, ∀ r' ∈ rs', r.2 < r'.1 ∨ r'.2 < r.1) (h : rs.covers n = true) :
    rs'.covers n = false := by
  rw [Bool.eq_false_iff]
  intro h'
  obtain ⟨r, hr, hlo, hhi⟩ := Ranges.exists_of_covers h
  obtain ⟨r', hr', hlo', hhi'⟩ := Ranges.exists_of_covers h'
  rcases hapart r hr r' hr' with hlt | hlt <;> omega

variable {c : Char}

theorem isBlank_eq_false_of_isAlphabetic (h : isAlphabetic c = true) : isBlank c = false :=
  covers_eq_false_of_apart (by decide +kernel) h

theorem isAlphabetic_eq_false_of_lt (h : c.toNat < 'A'.toNat) : isAlphabetic c = false :=
  Ranges.covers_of_lt h

theorem toNat_of_isDigit (h : c.isDigit = true) : 0x30 ≤ c.toNat ∧ c.toNat ≤ 0x39 := by
  simp only [Char.isDigit, Bool.and_eq_true, decide_eq_true_eq, UInt32.le_iff_toNat_le] at h
  exact h

theorem isBlank_eq_false_of_isDigit (h : c.isDigit = true) : isBlank c = false := by
  have hdigit : Ranges.covers [(0x30, 0x39)] c.toNat = true := by
    obtain ⟨hlo, hhi⟩ := toNat_of_isDigit h
    simp [Ranges.covers, Nat.not_lt.2 hlo, hhi]
  exact covers_eq_false_of_apart (by decide +kernel) hdigit

theorem isAlphabetic_eq_false_of_isDigit (h : c.isDigit = true) : isAlphabetic c = false := by
  obtain ⟨-, hhi⟩ := toNat_of_isDigit h
  exact isAlphabetic_eq_false_of_lt (Nat.lt_of_le_of_lt hhi (by decide))

theorem Mark.ofChar?_char (m : Mark) : Mark.ofChar? m.char = some m := by
  cases m <;> rfl

theorem Mark.ofChar?_eq_none (h : ∀ m : Mark, m.char ≠ c) : Mark.ofChar? c = none := by
  cases hm : Mark.ofChar? c with
  | none => rfl
  | some m => exact absurd (Mark.char_of_ofChar? hm) (h m)

/-! ## Lexemes -/

/-- What a lexeme may be with a given text behind it. -/
def Lexeme.Fits : Lexeme → List Char → Prop
  | word text, after =>
    (∃ c rest, text = c :: rest ∧ isAlphabetic c = true) ∧ (∀ c ∈ text, isAlphanumeric c = true) ∧
      ∀ c ∈ after.head?, isAlphanumeric c = false
  | number digits, after =>
    digits ≠ [] ∧ (∀ c ∈ digits, c.isDigit = true) ∧ ∀ c ∈ after.head?, c.isDigit = false
  | mark _, _ => True
  | blank c, _ => isBlank c = true
  | comment text, after =>
    (∃ rest, text = '#' :: rest ∧ '\n' ∉ rest) ∧ ∀ c ∈ after.head?, c = '\n'
  | stray c, _ =>
    isBlank c = false ∧ c ≠ '#' ∧ isAlphabetic c = false ∧ c.isDigit = false ∧
      ∀ m : Mark, m.char ≠ c

/-- The text is the lexemes put end to end, each of which fits what is behind it. -/
inductive Splits : List Lexeme → List Char → Prop where
  | nil : Splits [] []
  | cons {l : Lexeme} {ls : List Lexeme} {after : List Char} :
      l.Fits after → Splits ls after → Splits (l :: ls) (l.chars ++ after)

/-- Whether a lexeme fits is a matter of the first character behind it. -/
theorem Lexeme.Fits.of_head?_eq {l : Lexeme} {after after' : List Char} (h : l.Fits after)
    (hsame : after'.head? = after.head?) : l.Fits after' := by
  cases l with
  | word => exact ⟨h.1, h.2.1, hsame ▸ h.2.2⟩
  | number => exact ⟨h.1, h.2.1, hsame ▸ h.2.2⟩
  | comment => exact ⟨h.1, hsame ▸ h.2⟩
  | mark | blank | stray => exact h

theorem head?_dropWhile {p : Char → Bool} {cs : List Char} :
    ∀ c ∈ (cs.dropWhile p).head?, p c = false := by
  intro c hc
  have hnot := List.head?_dropWhile_not p cs
  rw [Option.mem_def] at hc
  rwa [hc] at hnot

/-- A run ends where the characters of its class do. -/
theorem span_append {p : Char → Bool} {run after : List Char} (hrun : ∀ c ∈ run, p c = true)
    (hafter : ∀ c ∈ after.head?, p c = false) :
    (run ++ after).takeWhile p = run ∧ (run ++ after).dropWhile p = after := by
  rw [List.takeWhile_append_of_pos hrun, List.dropWhile_append_of_pos hrun]
  cases after with
  | nil => simp
  | cons c rest =>
    have hc : p c = false := hafter c rfl
    simp [hc]

/-- The first lexeme of a text fits what is behind it. -/
theorem firstLexeme_fits (c : Char) (rest : List Char) :
    (firstLexeme c rest).1.Fits (firstLexeme c rest).2 := by
  unfold firstLexeme
  split
  · assumption
  rename_i hblank
  split
  · rename_i hhash
    refine ⟨⟨_, by rw [hhash], fun hmem => ?_⟩, fun d hd => ?_⟩
    · simpa using List.mem_takeWhile_imp hmem
    · simpa using head?_dropWhile d hd
  rename_i hhash
  split
  · rename_i hletter
    refine ⟨⟨c, _, rfl, hletter⟩, ?_, head?_dropWhile⟩
    intro d hd
    rcases List.mem_cons.1 hd with rfl | hd
    · exact isAlphanumeric_of_isAlphabetic hletter
    · exact List.mem_takeWhile_imp hd
  rename_i hletter
  split
  · rename_i hdigit
    refine ⟨List.cons_ne_nil c _, ?_, head?_dropWhile⟩
    intro d hd
    rcases List.mem_cons.1 hd with rfl | hd
    · exact hdigit
    · exact List.mem_takeWhile_imp hd
  rename_i hdigit
  split
  · trivial
  · rename_i hmark
    simp only [Bool.not_eq_true] at hblank hletter hdigit
    refine ⟨hblank, hhash, hletter, hdigit, fun m hm => ?_⟩
    rw [← hm, Mark.ofChar?_char] at hmark
    cases hmark

/-- A lexeme that fits what is behind it is the first one of the text. -/
theorem Lexeme.Fits.eq_firstLexeme {l : Lexeme} {after : List Char} (h : l.Fits after) :
    ∃ c rest, l.chars ++ after = c :: rest ∧ firstLexeme c rest = (l, after) := by
  cases l with
  | word text =>
    obtain ⟨⟨c, run, rfl, hletter⟩, hrun, hafter⟩ := h
    refine ⟨c, run ++ after, rfl, ?_⟩
    have hhash : c ≠ '#' := by
      rintro rfl
      rw [isAlphabetic_eq_false_of_lt (by decide)] at hletter
      cases hletter
    obtain ⟨htake, hdrop⟩ := span_append (List.forall_mem_cons.1 hrun).2 hafter
    simp [firstLexeme, isBlank_eq_false_of_isAlphabetic hletter, hhash, hletter, htake, hdrop]
  | number digits =>
    obtain ⟨hne, hdigits, hafter⟩ := h
    obtain ⟨c, run, rfl⟩ := List.exists_cons_of_ne_nil hne
    obtain ⟨hc, hrun⟩ := List.forall_mem_cons.1 hdigits
    refine ⟨c, run ++ after, rfl, ?_⟩
    have hhash : c ≠ '#' := by
      rintro rfl
      exact absurd hc (by decide)
    obtain ⟨htake, hdrop⟩ := span_append hrun hafter
    simp [firstLexeme, isBlank_eq_false_of_isDigit hc, hhash, isAlphabetic_eq_false_of_isDigit hc,
      hc, htake, hdrop]
  | mark m =>
    refine ⟨m.char, after, rfl, ?_⟩
    cases m <;> rfl
  | blank c =>
    have hc : isBlank c = true := h
    refine ⟨c, after, rfl, ?_⟩
    simp [firstLexeme, hc]
  | comment text =>
    obtain ⟨⟨run, rfl, hrun⟩, hafter⟩ := h
    refine ⟨'#', run ++ after, rfl, ?_⟩
    have hline : ∀ c ∈ run, (c != '\n') = true := by
      intro c hc
      simp only [bne_iff_ne, ne_eq]
      rintro rfl
      exact hrun hc
    have hend : ∀ c ∈ after.head?, (c != '\n') = false := by
      intro c hc
      rw [hafter c hc]
      rfl
    obtain ⟨htake, hdrop⟩ := span_append hline hend
    simp [firstLexeme, show isBlank '#' = false from rfl, htake, hdrop]
  | stray c =>
    obtain ⟨hblank, hhash, hletter, hdigit, hmark⟩ := h
    refine ⟨c, after, rfl, ?_⟩
    simp [firstLexeme, hblank, hhash, hletter, hdigit, Mark.ofChar?_eq_none hmark]

theorem splits_lexemes (source : List Char) : Splits (lexemes source) source := by
  fun_induction lexemes source with
  | case1 => exact .nil
  | case2 c rest ih =>
    have hcons := Splits.cons (firstLexeme_fits c rest) ih
    rwa [firstLexeme_chars] at hcons

/-- Every text falls into lexemes, and in one way only. -/
theorem splits_iff {ls : List Lexeme} {source : List Char} :
    Splits ls source ↔ ls = lexemes source := by
  constructor
  · intro h
    induction h with
    | nil => rw [lexemes]
    | cons hfits _ ih =>
      obtain ⟨c, rest, htext, hfirst⟩ := hfits.eq_firstLexeme
      rw [htext, lexemes, hfirst, ih]
  · rintro rfl
    exact splits_lexemes source

/-! ## Places -/

/-- The place behind a text: the line feeds in it, and the characters since the last one. -/
def Position.behind (text : List Char) : Position where
  line := text.count '\n'
  column := (text.reverse.takeWhile (· != '\n')).length

theorem Position.next_behind (text : List Char) (c : Char) :
    (Position.behind text).next c = .behind (text ++ [c]) := by
  by_cases hc : c = '\n'
  · subst hc
    simp [next, behind]
  · simp [next, behind, hc]

theorem Position.after_behind (text more : List Char) :
    (Position.behind text).after more = .behind (text ++ more) := by
  induction more generalizing text with
  | nil => rw [List.append_nil]; rfl
  | cons c more ih =>
    show ((Position.behind text).next c).after more = _
    rw [next_behind, ih, List.append_assoc, List.singleton_append]

end Breadboard.Definition
