import Breadboard.Proofs.Definition.Places

/-!
# Texts with other names in them

`renameSource r source` is a text with other words in place of its names. A word right behind an
opening square bracket or a dot is a heading or the name of a pin, and is left alone; all else,
blanks and comments too, stays where it is. If what comes in are names again, the text is scanned as
before, with the new names in place of the old ones.

* `lexemes_renameSource`: no lexeme runs on into the next one.
* `symbols_renameSource`, `strays_renameSource`: what is read is what was read, with other names.
-/
namespace Breadboard.Definition

open Breadboard.Text

/-! ## Names for devices -/

/-- The text can be the name of a device: it is scanned as a single word, and that is not
reserved. -/
structure IsName (name : String) : Prop where
  word : lexemes name.toList = [.word name.toList]
  free : DeviceKind.ofKeyword? name = none

/-- A word is left alone, or a name for devices comes in its place. Reserved words are left
alone. -/
def Renames (r : String → String) : Prop :=
  ∀ name, r name = name ∨ DeviceKind.ofKeyword? name = none ∧ IsName (r name)

/-- A letter, and letters and digits behind it. -/
def IsWord (text : List Char) : Prop :=
  (∃ c rest, text = c :: rest ∧ isAlphabetic c = true) ∧ ∀ c ∈ text, isAlphanumeric c = true

variable {r : String → String} {text : List Char} {name : String}

theorem IsName.isWord (h : IsName name) : IsWord name.toList := by
  obtain ⟨after, hstart, hall, -⟩ :=
    (splits_lexemes name.toList).exists_fits (.word name.toList) (by simp [h.word])
  exact ⟨hstart, hall⟩

theorem IsWord.rename (hr : Renames r) (h : IsWord text) :
    IsWord (r (String.ofList text)).toList := by
  rcases hr (String.ofList text) with hsame | ⟨-, hname⟩
  · rwa [hsame, String.toList_ofList]
  · exact hname.isWord

theorem Renames.ofKeyword?_eq (hr : Renames r) (name : String) :
    DeviceKind.ofKeyword? (r name) = DeviceKind.ofKeyword? name := by
  rcases hr name with hsame | ⟨hfree, hname⟩
  · rw [hsame]
  · rw [hfree, hname.free]

/-! ## Lexemes -/

/-- Whether a word right behind the mark is a heading or the name of a pin. -/
def Mark.keeps (m : Mark) : Bool := m = .openSquare || m = .dot

/-- Lexemes with other words in place of names, given whether the first word is left alone. -/
def renameLexemes (r : String → String) : Bool → List Lexeme → List Lexeme
  | _, [] => []
  | kept, .word text :: rest =>
    .word (if kept then text else (r (String.ofList text)).toList) :: renameLexemes r false rest
  | _, .number digits :: rest => .number digits :: renameLexemes r false rest
  | _, .mark m :: rest => .mark m :: renameLexemes r m.keeps rest
  | kept, l :: rest => l :: renameLexemes r kept rest

/-- A text with other words in place of names. -/
def renameSource (r : String → String) (source : String) : String :=
  String.ofList ((renameLexemes r false (lexemes source.toList)).flatMap Lexeme.chars)

/-- The text goes on as before, or with a letter where it went on with a letter. -/
def GoesOnAs (after after' : List Char) : Prop :=
  after'.head? = after.head? ∨
    (∃ c ∈ after.head?, isAlphabetic c = true) ∧ ∀ c ∈ after'.head?, isAlphabetic c = true

/-- A lexeme other than a word ends where it did. -/
theorem Lexeme.Fits.of_goesOnAs {l : Lexeme} {after after' : List Char} (h : l.Fits after)
    (hnext : GoesOnAs after after') : l.Fits after' := by
  rcases hnext with hsame | ⟨⟨c, hc, hletter⟩, hletters⟩
  · exact h.of_head?_eq hsame
  · cases l with
    | word =>
      have hdone := h.2.2 c hc
      rw [isAlphanumeric_of_isAlphabetic hletter] at hdone
      cases hdone
    | number =>
      refine ⟨h.1, h.2.1, fun c' hc' => Bool.eq_false_iff.2 fun hdigit => ?_⟩
      have hnone := isAlphabetic_eq_false_of_isDigit hdigit
      rw [hletters c' hc'] at hnone
      cases hnone
    | comment =>
      rw [h.2 c hc, isAlphabetic_eq_false_of_lt (by decide)] at hletter
      cases hletter
    | mark | blank | stray => exact h

theorem renameLexemes_cons (r : String → String) (kept : Bool) (l : Lexeme) (rest : List Lexeme) :
    (∃ text, l = .word text) ∨
      ∃ kept', renameLexemes r kept (l :: rest) = l :: renameLexemes r kept' rest := by
  cases l with
  | word text => exact .inl ⟨text, rfl⟩
  | number | mark | blank | comment | stray => exact .inr ⟨_, rfl⟩

theorem goesOnAs_renameLexemes (hr : Renames r) {ls : List Lexeme} (h : Splits ls text)
    (kept : Bool) : GoesOnAs text ((renameLexemes r kept ls).flatMap Lexeme.chars) := by
  cases h with
  | nil => exact .inl rfl
  | @cons l ls after hfits hrest =>
    rcases renameLexemes_cons r kept l ls with ⟨run, rfl⟩ | ⟨kept', hsame⟩
    · obtain ⟨⟨c, rest, rfl, hletter⟩, hall, -⟩ := hfits
      cases kept with
      | true => exact .inl rfl
      | false =>
        have hrun : IsWord (c :: rest) := ⟨⟨c, rest, rfl, hletter⟩, hall⟩
        obtain ⟨⟨c', rest', hnew, hletter'⟩, -⟩ := hrun.rename hr
        refine .inr ⟨⟨c, rfl, hletter⟩, fun d hd => ?_⟩
        simp only [renameLexemes, Bool.false_eq_true, if_false, List.flatMap_cons, Lexeme.chars,
          hnew, List.cons_append, List.head?_cons, Option.mem_some] at hd
        exact hd ▸ hletter'
    · refine .inl ?_
      rw [hsame, List.flatMap_cons, List.head?_append_of_ne_nil _ hfits.chars_ne_nil,
        List.head?_append_of_ne_nil _ hfits.chars_ne_nil]

theorem Splits.rename (hr : Renames r) {ls : List Lexeme} (h : Splits ls text) (kept : Bool) :
    Splits (renameLexemes r kept ls) ((renameLexemes r kept ls).flatMap Lexeme.chars) := by
  induction h generalizing kept with
  | nil => exact .nil
  | @cons l ls after hfits hrest ih =>
    rcases renameLexemes_cons r kept l ls with ⟨run, rfl⟩ | ⟨kept', hsame⟩
    · have hnext := hfits.of_goesOnAs (goesOnAs_renameLexemes hr hrest false)
      refine .cons ?_ (ih false)
      cases kept with
      | true => exact hnext
      | false =>
        have hrun : IsWord run := ⟨hnext.1, hnext.2.1⟩
        obtain ⟨hstart, hall⟩ := hrun.rename hr
        exact ⟨hstart, hall, hnext.2.2⟩
    · rw [hsame]
      exact .cons (hfits.of_goesOnAs (goesOnAs_renameLexemes hr hrest kept')) (ih kept')

/-- The lexemes of a text with other names are those of the text, with the names renamed. -/
theorem lexemes_renameSource (hr : Renames r) (source : String) :
    lexemes (renameSource r source).toList = renameLexemes r false (lexemes source.toList) := by
  rw [renameSource, String.toList_ofList]
  exact (splits_iff.1 ((splits_lexemes source.toList).rename hr false)).symm

/-! ## Symbols -/

/-- The symbol of a word, given whether it stands right behind an opening square bracket. -/
def wordSymbol (afterSquare : Bool) (word : String) : Symbol :=
  match (if afterSquare then Section.ofHeading? word else none) with
  | some s => .heading s
  | none =>
    match DeviceKind.ofKeyword? word with
    | some kind => .keyword kind
    | none => .name word

/-- The symbols among lexemes. -/
def symbolsAmong : Bool → List Lexeme → List Symbol
  | _, [] => []
  | afterSquare, .word text :: rest =>
    wordSymbol afterSquare (String.ofList text) :: symbolsAmong false rest
  | _, .number digits :: rest => .number (String.ofList digits) :: symbolsAmong false rest
  | _, .mark m :: rest => .mark m :: symbolsAmong (m = .openSquare) rest
  | afterSquare, _ :: rest => symbolsAmong afterSquare rest

theorem symbol?_wordKind (afterSquare : Bool) (word : String) (id : NameId) (p : Position) :
    (Token.mk (wordKind afterSquare word id) word p).symbol? =
      some (wordSymbol afterSquare word) := by
  unfold wordKind wordSymbol
  cases (if afterSquare then Section.ofHeading? word else none) with
  | some s => rfl
  | none => cases DeviceKind.ofKeyword? word <;> rfl

theorem symbols_tokensFrom (names : NameTable) (afterSquare : Bool) (p : Position)
    (ls : List Lexeme) :
    (tokensFrom names afterSquare (placed p ls)).1.filterMap Token.symbol? =
      symbolsAmong afterSquare ls := by
  induction ls generalizing names afterSquare p with
  | nil => rfl
  | cons l ls ih =>
    cases l with
    | word text =>
      rw [symbolsAmong, ← ih]
      exact List.filterMap_cons_some (symbol?_wordKind _ _ _ _)
    | number digits =>
      rw [symbolsAmong, ← ih]
      exact List.filterMap_cons_some rfl
    | mark m =>
      rw [symbolsAmong, ← ih]
      exact List.filterMap_cons_some rfl
    | blank | comment | stray => exact ih _ _ _

theorem symbols_eq (source : String) :
    symbols source = symbolsAmong false (lexemes source.toList) :=
  symbols_tokensFrom .empty false {} _

/-- What is read as a name is not reserved. -/
theorem ofKeyword?_of_name_mem_symbolsAmong {afterSquare : Bool} {ls : List Lexeme}
    (h : .name name ∈ symbolsAmong afterSquare ls) : DeviceKind.ofKeyword? name = none := by
  induction ls generalizing afterSquare with
  | nil => cases h
  | cons l ls ih =>
    cases l with
    | word text =>
      rcases List.mem_cons.1 h with h | h
      · unfold wordSymbol at h
        split at h
        · cases h
        split at h
        · cases h
        · cases h
          assumption
      · exact ih h
    | number | mark => exact ih (List.mem_of_ne_of_mem (by simp) h)
    | blank | comment | stray => exact ih h

/-- Symbols with other names, given whether the first one is left alone. -/
def renameSymbols (r : String → String) : Bool → List Symbol → List Symbol
  | _, [] => []
  | kept, .name name :: rest =>
    .name (if kept then name else r name) :: renameSymbols r false rest
  | _, .mark m :: rest => .mark m :: renameSymbols r m.keeps rest
  | _, x :: rest => x :: renameSymbols r false rest

theorem renameSymbols_wordSymbol (hr : Renames r) {afterSquare kept : Bool}
    (hkept : afterSquare = true → kept = true) (word : String) (rest : List Symbol) :
    renameSymbols r kept (wordSymbol afterSquare word :: rest) =
      wordSymbol afterSquare (if kept then word else r word) :: renameSymbols r false rest := by
  cases kept with
  | true =>
    simp only [wordSymbol, if_true]
    cases (if afterSquare then Section.ofHeading? word else none) with
    | some s => rfl
    | none => cases DeviceKind.ofKeyword? word <;> rfl
  | false =>
    have hsquare : afterSquare = false := Bool.eq_false_iff.2 fun h => by cases hkept h
    subst hsquare
    simp only [wordSymbol, Bool.false_eq_true, if_false, hr.ofKeyword?_eq]
    cases DeviceKind.ofKeyword? word <;> rfl

theorem symbolsAmong_renameLexemes (hr : Renames r) {afterSquare kept : Bool}
    (hkept : afterSquare = true → kept = true) (ls : List Lexeme) :
    symbolsAmong afterSquare (renameLexemes r kept ls) =
      renameSymbols r kept (symbolsAmong afterSquare ls) := by
  induction ls generalizing afterSquare kept with
  | nil => rfl
  | cons l ls ih =>
    cases l with
    | word text =>
      have hword : String.ofList (if kept then text else (r (String.ofList text)).toList) =
          if kept then String.ofList text else r (String.ofList text) := by
        split
        · rfl
        · exact String.ofList_toList
      rw [renameLexemes, symbolsAmong, symbolsAmong, renameSymbols_wordSymbol hr hkept, hword,
        ih id]
    | number digits =>
      rw [renameLexemes, symbolsAmong, ih id]
      rfl
    | mark m =>
      have hmark : decide (m = .openSquare) = true → m.keeps = true := by
        simp only [decide_eq_true_eq]
        rintro rfl
        rfl
      rw [renameLexemes, symbolsAmong, symbolsAmong, renameSymbols, ih hmark]
    | blank | comment | stray => exact ih hkept

/-- What is read is what was read, with other names. -/
theorem symbols_renameSource (hr : Renames r) (source : String) :
    symbols (renameSource r source) = renameSymbols r false (symbols source) := by
  rw [symbols_eq, lexemes_renameSource hr, symbolsAmong_renameLexemes hr id, symbols_eq]

/-! ## Characters without a place -/

theorem stray_mem_renameLexemes {c : Char} {kept : Bool} {ls : List Lexeme} :
    .stray c ∈ renameLexemes r kept ls ↔ .stray c ∈ ls := by
  induction ls generalizing kept with
  | nil => rfl
  | cons l ls ih => cases l <;> simp [renameLexemes, ih]

theorem strays_renameSource (hr : Renames r) {source : String}
    (h : (scan .empty source.toList).strays = []) :
    (scan .empty (renameSource r source).toList).strays = [] := by
  have hnone := placedStrays_eq_nil_iff.1 h
  refine placedStrays_eq_nil_iff.2 fun c => ?_
  rw [lexemes_renameSource hr, stray_mem_renameLexemes]
  exact hnone c

end Breadboard.Definition
