import Breadboard.Proofs.Definition.Reliability
import Breadboard.Proofs.Definition.Respacing

/-!
# Stray characters

A character that has no place in a definition is reported and passed over, and that is all that
comes of it. The text with spaces for such characters has the same tokens at the same places, so it
is read in the same way, and nothing of the kind is reported of it.

* `blankAt_lexemes`: spaces for the stray characters change no other lexeme.
* `scan_blankAt`: the scan of the text with spaces for them is the same, without stray characters.
* `issues_readFile_ne_invalidCharacter`: a reader finds no stray characters.
* `readOnto_blanked`: what comes of a text, and of the text with spaces for what is reported.
-/
namespace Breadboard.Definition

open Breadboard.Text

/-! ## Spaces for characters -/

/-- The text with spaces for the characters at the given places, given the place where it begins. -/
def blankAt (places : List Position) (p : Position) : List Char → List Char
  | [] => []
  | c :: rest => (if p ∈ places then ' ' else c) :: blankAt places (p.next c) rest

variable {places : List Position} {p : Position} {ls : List Lexeme}

theorem blankAt_append (places : List Position) (p : Position) (cs ds : List Char) :
    blankAt places p (cs ++ ds) = blankAt places p cs ++ blankAt places (p.after cs) ds := by
  induction cs generalizing p with
  | nil => rfl
  | cons c cs ih =>
    rw [List.cons_append, blankAt, ih]
    rfl

/-- A text at none of the places is left as it is. -/
theorem blankAt_eq_self {cs : List Char} (h : ∀ q ∈ places, p ≤ q → p.after cs ≤ q) :
    blankAt places p cs = cs := by
  induction cs generalizing p with
  | nil => rfl
  | cons c cs ih =>
    have hp : p ∉ places := fun hp => (p.lt_after (List.cons_ne_nil c cs)).not_ge (h p hp (le_refl p))
    rw [blankAt, if_neg hp, ih fun q hq hle => h q hq ((p.lt_next c).le.trans hle)]

/-- The lexeme with a space for a stray character. -/
def Lexeme.cleaned : Lexeme → Lexeme
  | stray _ => blank ' '
  | l => l

theorem Lexeme.isToken_cleaned (l : Lexeme) : l.cleaned.isToken = l.isToken := by
  cases l <;> rfl

theorem Lexeme.cleaned_of_isToken {l : Lexeme} (h : l.isToken = true) : l.cleaned = l := by
  cases l with
  | word | number | mark => rfl
  | blank | comment | stray => cases h

/-- A stray character does not end a line. -/
theorem Lexeme.Fits.after_cleaned {l : Lexeme} {rest : List Char} (h : l.Fits rest) (p : Position) :
    p.after l.cleaned.chars = p.after l.chars := by
  cases l with
  | word | number | mark | blank | comment => rfl
  | stray c =>
    have hc : c ≠ '\n' := by
      rintro rfl
      exact absurd h.1 (by decide)
    show p.next ' ' = p.next c
    rw [Position.next, Position.next, if_neg hc]
    rfl

/-- What fits before a text fits before the text with spaces for the stray characters in it. -/
theorem Lexeme.Fits.before_cleaned {l : Lexeme} {text : List Char} (h : l.Fits text)
    (hls : Splits ls text) : l.Fits ((ls.map Lexeme.cleaned).flatMap Lexeme.chars) := by
  cases hls with
  | nil => exact h
  | @cons first ls after hfirst hrest =>
    have hne : first.chars ≠ [] := hfirst.chars_ne_nil
    rw [List.map_cons, List.flatMap_cons]
    cases first with
    | word | number | mark | blank | comment =>
      refine h.of_head?_eq ?_
      rw [List.head?_append_of_ne_nil _ hne]
      exact List.head?_append_of_ne_nil _ hne
    | stray c =>
      cases l with
      | word | number | mark => exact h.before_space rfl _
      | comment =>
        obtain rfl : c = '\n' := h.2 c rfl
        exact absurd hfirst.1 (by decide)
      | blank | stray => exact h

theorem Lexeme.Fits.cleaned {l : Lexeme} {after : List Char} (h : l.Fits after) :
    l.cleaned.Fits after := by
  cases l with
  | word | number | mark | blank | comment => exact h
  | stray => exact (rfl : isBlank ' ' = true)

/-- A space where a stray character was ends no other lexeme and joins none. -/
theorem Splits.cleaned {text : List Char} (h : Splits ls text) :
    Splits (ls.map Lexeme.cleaned) ((ls.map Lexeme.cleaned).flatMap Lexeme.chars) := by
  induction h with
  | nil => exact .nil
  | cons hfits hrest ih => exact .cons (hfits.before_cleaned hrest).cleaned ih

/-- The places of lexemes are the same with spaces for the stray characters. -/
theorem placed_cleaned (p : Position) (hfits : ∀ l ∈ ls, ∃ after, l.Fits after) :
    placed p (ls.map Lexeme.cleaned) = (placed p ls).map (Prod.map id Lexeme.cleaned) := by
  induction ls generalizing p with
  | nil => rfl
  | cons l ls ih =>
    obtain ⟨⟨after, hl⟩, hfits⟩ := List.forall_mem_cons.1 hfits
    rw [List.map_cons, placed, placed, hl.after_cleaned, ih _ hfits]
    rfl

theorem after_cleaned (p : Position) (hfits : ∀ l ∈ ls, ∃ after, l.Fits after) :
    p.after ((ls.map Lexeme.cleaned).flatMap Lexeme.chars) = p.after (ls.flatMap Lexeme.chars) := by
  induction ls generalizing p with
  | nil => rfl
  | cons l ls ih =>
    obtain ⟨⟨after, hl⟩, hfits⟩ := List.forall_mem_cons.1 hfits
    rw [List.map_cons, List.flatMap_cons, List.flatMap_cons, Position.after_append,
      Position.after_append, hl.after_cleaned, ih _ hfits]

/-- Spaces for the stray characters change no other lexeme. -/
theorem blankAt_lexemes (hfits : ∀ l ∈ ls, ∃ after, l.Fits after)
    (hplaces : ∀ q, p ≤ q → (q ∈ places ↔ q ∈ (placedStrays (placed p ls)).map Prod.fst)) :
    blankAt places p (ls.flatMap Lexeme.chars) =
      (ls.map Lexeme.cleaned).flatMap Lexeme.chars := by
  induction ls generalizing p with
  | nil => rfl
  | cons l ls ih =>
    obtain ⟨⟨after, hl⟩, hfits⟩ := List.forall_mem_cons.1 hfits
    have hlt : p < p.after l.chars := p.lt_after hl.chars_ne_nil
    have hstrays : (placedStrays (placed p (l :: ls))).map Prod.fst =
        (placedStrays [(p, l)]).map Prod.fst ++
          (placedStrays (placed (p.after l.chars) ls)).map Prod.fst := by
      rw [← List.map_append, ← placedStrays_append]
      rfl
    have hrest : ∀ q, p.after l.chars ≤ q →
        (q ∈ places ↔ q ∈ (placedStrays (placed (p.after l.chars) ls)).map Prod.fst) := by
      intro q hq
      have hfirst : q ∉ (placedStrays [(p, l)]).map Prod.fst := by
        intro hmem
        have hq' : q ∈ [p] := (places_placedStrays_sublist [(p, l)]).subset hmem
        rw [List.mem_singleton.1 hq'] at hq
        exact hlt.not_ge hq
      rw [hplaces q (hlt.le.trans hq), hstrays, List.mem_append, or_iff_right hfirst]
    rw [List.flatMap_cons, blankAt_append, ih hfits hrest, List.map_cons, List.flatMap_cons]
    refine congrArg (· ++ _) ?_
    cases l with
    | stray c =>
      have hp : p ∈ places := by
        rw [hplaces p (le_refl p), hstrays]
        exact List.mem_append_left _ List.mem_cons_self
      show [if p ∈ places then ' ' else c] = [' ']
      rw [if_pos hp]
    | word | number | mark | blank | comment =>
      refine blankAt_eq_self fun q hq hle => ?_
      rw [hplaces q hle, hstrays] at hq
      have hmem : q ∈ (placed _ ls).map Prod.fst := (places_placedStrays_sublist _).subset hq
      exact le_of_mem_placesFrom (List.mem_append_left _ hmem)

/-! ## Scans -/

theorem filter_isToken_cleaned (pieces : List (Position × Lexeme)) :
    (pieces.map (Prod.map id Lexeme.cleaned)).filter (·.2.isToken) =
      pieces.filter (·.2.isToken) := by
  induction pieces with
  | nil => rfl
  | cons piece pieces ih =>
    obtain ⟨p, l⟩ := piece
    rw [List.map_cons, Prod.map, List.filter_cons, List.filter_cons, Lexeme.isToken_cleaned, ih]
    split
    · rename_i htoken
      rw [Lexeme.cleaned_of_isToken htoken]
      rfl
    · rfl

theorem stray_notMem_cleaned (ls : List Lexeme) (c : Char) : .stray c ∉ ls.map Lexeme.cleaned := by
  rw [List.mem_map]
  rintro ⟨l, -, hl⟩
  cases l <;> cases hl

/-- The scan of a text with spaces for its stray characters is the same, without them. -/
theorem scan_blankAt (names : NameTable) (source : List Char) :
    scan names (blankAt ((scan names source).issues.map (·.position)) {} source) =
      { scan names source with strays := [] } := by
  have hfits : ∀ l ∈ lexemes source, ∃ after, l.Fits after := (splits_lexemes source).exists_fits
  have hplaces : (scan names source).issues.map (·.position) =
      (placedStrays (placed {} (lexemes source))).map Prod.fst := by
    rw [Scan.issues, List.map_map]
    rfl
  have hcleaned := blankAt_lexemes (p := {}) hfits fun q _ => by rw [← hplaces]
  rw [lexemes_flatMap_chars] at hcleaned
  have hlexemes := (splits_iff.1 (splits_lexemes source).cleaned).symm
  rw [← hcleaned] at hlexemes
  have hpieces := placed_cleaned {} hfits
  have htokens : ∀ names, tokensFrom names false (placed {} ((lexemes source).map Lexeme.cleaned)) =
      tokensFrom names false (placed {} (lexemes source)) := by
    intro names
    rw [← tokensFrom_filter_isToken, hpieces, filter_isToken_cleaned, tokensFrom_filter_isToken]
  have hend := after_cleaned {} hfits
  rw [← hcleaned, lexemes_flatMap_chars] at hend
  rw [scan_eq names (congrArg (placed {}) hlexemes), htokens, hend,
    placedStrays_eq_nil_iff.2 (stray_notMem_cleaned _)]
  rfl

/-! ## Readings -/

/-- A reader finds no stray characters. -/
theorem issues_readFile_ne_invalidCharacter (limit : Nat) {tokens : List Token} {finish : Token}
    (hfinish : finish.kind = .endOfFile) (circuit : Circuit) (probes : Probes) :
    ∀ i ∈ (readFile limit tokens finish { circuit, probes }).issues,
      i.fault.kind ≠ .invalidCharacter := by
  have hadds : ({ circuit, probes } : Draft).Adds (·.kind ≠ .invalidCharacter)
      (readFile limit tokens finish { circuit, probes }) := by
    rw [readFile_eq_plan limit tokens _ hfinish]
    refine adds_inSection_foldl_apply (fun id hid => absurd hid List.not_mem_nil)
      (fun f hf hkind => Fault.inSection_iff.1 hf (by simp [hkind])) fun i hi hkind => ?_
    have hheader := (accounted_filePlan finish _ _).headers i hi
    simp [Issue.ofHeader, hkind] at hheader
  obtain ⟨new, hnew, hkind⟩ := hadds
  rw [List.nil_append] at hnew
  exact hnew ▸ hkind

/-- **Stray characters.** With spaces for the characters that are reported as having no place in it,
a text is read onto the same board with the same notices. No such character is reported of it, and
the other diagnostics are the same, in the same order, but for the source lines that they show. -/
theorem readOnto_blanked (b : Board) (limit : Nat) (source : String) :
    let reading := readOnto b limit source
    let reported :=
      (reading.diagnostics.filter (·.kind = .invalidCharacter)).map (·.position)
    let blanked := readOnto b limit (String.ofList (blankAt reported {} source.toList))
    blanked.board = reading.board ∧ blanked.notices = reading.notices ∧
    (∀ d ∈ blanked.diagnostics, d.kind ≠ .invalidCharacter) ∧
    blanked.diagnostics.map (fun d => (d.kind, d.message, d.position)) =
      (reading.diagnostics.filter (·.kind ≠ .invalidCharacter)).map
        fun d => (d.kind, d.message, d.position) := by
  intro reading reported blanked
  set scanned := scan b.names source.toList
  set start : Draft := { circuit := b.circuit, probes := b.probes }
  set found := (readFile limit scanned.tokens scanned.finish start).issues
  have hstrays : ∀ i ∈ scanned.issues, i.fault.kind = .invalidCharacter := by
    intro i hi
    obtain ⟨stray, -, rfl⟩ := List.mem_map.1 hi
    rfl
  have hothers : ∀ i ∈ found, i.fault.kind ≠ .invalidCharacter :=
    issues_readFile_ne_invalidCharacter limit rfl b.circuit b.probes
  have hkept : (scanned.issues ++ found).filter (·.fault.kind = .invalidCharacter) =
      scanned.issues := by
    rw [List.filter_append, List.filter_eq_self.2 (by simpa using hstrays),
      List.filter_eq_nil_iff.2 (by simpa using hothers), List.append_nil]
  have hleft : (scanned.issues ++ found).filter (·.fault.kind ≠ .invalidCharacter) = found := by
    rw [List.filter_append, List.filter_eq_nil_iff.2 (by simpa using hstrays),
      List.filter_eq_self.2 (by simpa using hothers), List.nil_append]
  have hreported : reported = scanned.issues.map (·.position) := by
    show (((scanned.issues ++ found).map (Issue.diagnostic _)).filter _).map _ = _
    rw [List.filter_map, List.map_map]
    exact congrArg (List.map Issue.position) hkept
  have hscan : scan b.names (String.ofList (blankAt reported {} source.toList)).toList =
      { scanned with strays := [] } := by
    rw [String.toList_ofList, hreported]
    exact scan_blankAt b.names source.toList
  have hread : blanked.board = reading.board ∧ blanked.notices = reading.notices ∧
      ∃ lines, blanked.diagnostics = found.map (·.diagnostic lines) := by
    simp only [blanked, readOnto, hscan]
    exact ⟨rfl, rfl, _, rfl⟩
  obtain ⟨hboard, hnotices, lines, hdiagnostics⟩ := hread
  refine ⟨hboard, hnotices, ?_, ?_⟩
  · rw [hdiagnostics, List.forall_mem_map]
    exact hothers
  · show _ = (((scanned.issues ++ found).map (Issue.diagnostic _)).filter _).map _
    rw [hdiagnostics, List.map_map, List.filter_map, List.map_map]
    exact congrArg _ hleft.symm

end Breadboard.Definition
