import Breadboard.Proofs.Definition.IssuePlaces
import Mathlib.Data.List.DropRight

/-!
# What carets point at

A diagnostic shows the source line of its place, with a caret under the character there. The line is
one of the pieces of the source between line feeds, and what stands in it from the caret on is the
token or the character that the diagnostic is about.

* `getElem?_splitOn_count`: the line of a place, by the line feeds before it.
* `Stands.lineText`: what stands at a place of a text stands in the line that is shown for it.
* `stands_of_mem_tokens`, `stands_of_mem_strays`: tokens and stray characters stand at their places.
* `splitOn_render`: a diagnostic as text has the caret right below the source line.
* `readOnto_pointsAt`: the three for the diagnostics of a reading.
-/
namespace Breadboard

namespace Text

/-! ## Lines -/

variable {separator : Char}

theorem splitOn_cons (c : Char) (cs : List Char) :
    (c :: cs).splitOn separator =
      if c = separator then [] :: cs.splitOn separator
      else (cs.splitOn separator).modifyHead (c :: ·) := by
  rw [List.splitOn_eq_splitOnP, List.splitOn_eq_splitOnP, List.splitOnP_cons_eq_if_modifyHead]
  simp only [beq_iff_eq]

theorem pieces_eq_splitOn (separator : Char) (cs : List Char) :
    pieces separator cs = cs.splitOn separator := by
  induction cs with
  | nil => rw [List.splitOn_nil, pieces]
  | cons c cs ih =>
    rw [splitOn_cons, ← ih, pieces]
    cases hrest : pieces separator cs with
    | nil => exact absurd hrest (pieces_ne_nil separator cs)
    | cons piece more => rfl

theorem length_splitOn (separator : Char) (cs : List Char) :
    (cs.splitOn separator).length = cs.count separator + 1 := by
  induction cs with
  | nil => simp
  | cons c cs ih =>
    rw [splitOn_cons, List.count_cons]
    split <;> simp_all

theorem getElem?_splitOn_zero (cs : List Char) :
    (cs.splitOn separator)[0]? = some (cs.takeWhile (· != separator)) := by
  induction cs with
  | nil => simp
  | cons c cs ih =>
    rw [splitOn_cons]
    split
    · rename_i hc
      simp [hc]
    · rename_i hc
      simp [hc, ih]

theorem splitOn_append_cons (cs rest : List Char) :
    (cs ++ separator :: rest).splitOn separator =
      cs.splitOn separator ++ rest.splitOn separator := by
  rw [List.splitOn_eq_splitOnP, List.splitOnP_append_cons _ _ (by simp)]
  rfl

theorem splitOn_of_notMem {cs : List Char} (h : separator ∉ cs) : cs.splitOn separator = [cs] := by
  rw [← pieces_eq_splitOn, pieces_of_notMem h]

/-- The text since the last line feed. -/
def lastLine (cs : List Char) : List Char := cs.rtakeWhile (· != '\n')

theorem lastLine_newline (cs : List Char) : lastLine (cs ++ ['\n']) = [] :=
  List.rtakeWhile_concat_neg _ _ _ (by simp)

theorem lastLine_concat {c : Char} (hc : c ≠ '\n') (cs : List Char) :
    lastLine (cs ++ [c]) = lastLine cs ++ [c] :=
  List.rtakeWhile_concat_pos _ _ _ (by simpa using hc)

/-- The line of a place, by the line feeds before it. -/
theorem getElem?_splitOn_count (before rest : List Char) :
    ((before ++ rest).splitOn '\n')[before.count '\n']? =
      some (lastLine before ++ rest.takeWhile (· != '\n')) := by
  induction before using List.reverseRecOn generalizing rest with
  | nil => exact getElem?_splitOn_zero rest
  | append_singleton before c ih =>
    rw [List.append_assoc, List.singleton_append, List.count_append]
    by_cases hc : c = '\n'
    · subst hc
      have hlength := length_splitOn '\n' before
      rw [splitOn_append_cons, lastLine_newline, List.nil_append, List.count_singleton_self,
        ← hlength, List.getElem?_append_right (le_refl _), Nat.sub_self, getElem?_splitOn_zero]
    · have hline := ih (c :: rest)
      rw [List.takeWhile_cons_of_pos (by simpa using hc)] at hline
      rw [List.count_singleton, if_neg (by simpa using hc), Nat.add_zero, hline,
        lastLine_concat hc, List.append_assoc, List.singleton_append]

theorem newline_notMem_line (before rest : List Char) :
    '\n' ∉ lastLine before ++ rest.takeWhile (· != '\n') := by
  intro h
  rcases List.mem_append.1 h with h | h
  · simpa using List.mem_rtakeWhile_imp h
  · simpa using List.mem_takeWhile_imp h

/-- What does not end in a character to be dropped stays at the front when such are dropped from the
end. -/
theorem isPrefix_rdropWhile {p : Char → Bool} {cs : List Char} (rest : List Char)
    (h : ∀ c ∈ cs.getLast?, p c = false) : cs <+: (cs ++ rest).rdropWhile p := by
  induction rest using List.reverseRecOn with
  | nil =>
    rw [List.append_nil, List.rdropWhile_eq_self_iff.2 fun hne => ?_]
    simpa using h _ (List.getLast?_eq_some_getLast hne)
  | append_singleton rest c ih =>
    rw [← List.append_assoc, List.rdropWhile_concat]
    split
    · exact ih
    · rw [List.append_assoc]
      exact List.prefix_append _ _

end Text

namespace Definition

open Text

/-! ## What stands at a place -/

/-- The text stands at the place of the source. -/
def Stands (source : List Char) (p : Position) (text : List Char) : Prop :=
  ∃ before after, source = before ++ (text ++ after) ∧ p = .behind before

section

variable {source text : List Char} {i : Issue} (h : Stands source i.position text)
include h

/-- The line that is shown for an issue is the piece of the source at its place. -/
theorem Stands.exists_line :
    let d := i.diagnostic (sourceLines source).toArray
    ∃ before after, d.position.column = (lastLine before).length ∧
      (source.splitOn '\n')[d.position.line]? =
        some (lastLine before ++ (text ++ after).takeWhile (· != '\n')) ∧
      d.lineText.toList =
        (lastLine before ++ (text ++ after).takeWhile (· != '\n')).rdropWhile (· == '\r') := by
  intro d
  obtain ⟨before, after, hsource, hposition⟩ := h
  have hbehind : d.position = .behind before := hposition
  have hpiece : (source.splitOn '\n')[d.position.line]? =
      some (lastLine before ++ (text ++ after).takeWhile (· != '\n')) := by
    rw [hsource, hbehind]
    exact getElem?_splitOn_count before (text ++ after)
  refine ⟨before, after, ?_, hpiece, ?_⟩
  · rw [hbehind, lastLine, List.rtakeWhile, List.length_reverse]
    rfl
  · show (((sourceLines source).toArray)[d.position.line]?.getD "").toList = _
    rw [List.getElem?_toArray, sourceLines, pieces_eq_splitOn, List.getElem?_map, hpiece]
    exact String.toList_ofList

theorem Stands.newline_notMem :
    '\n' ∉ (i.diagnostic (sourceLines source).toArray).lineText.toList := by
  obtain ⟨before, after, -, -, hline⟩ := h.exists_line
  rw [hline]
  exact fun hmem => newline_notMem_line before _ ((List.rdropWhile_prefix _ _).subset hmem)

/-- What stands at the place of an issue stands in the line that is shown for it. -/
theorem Stands.isPrefix_lineText (hne : text ≠ []) (htext : ∀ c ∈ text, isBlank c = false) :
    let d := i.diagnostic (sourceLines source).toArray
    text <+: d.lineText.toList.drop d.position.column := by
  intro d
  obtain ⟨before, after, hcolumn, -, hline⟩ := h.exists_line
  have hplain : ∀ c ∈ text, (c != '\n') = true := by
    intro c hc
    have hblank := htext c hc
    rw [bne_iff_ne]
    rintro rfl
    exact absurd hblank (by decide)
  have hlast : ∀ c ∈ (lastLine before ++ text).getLast?, (c == '\r') = false := by
    intro c hc
    rw [List.getLast?_append_of_ne_nil _ hne] at hc
    have hblank := htext c (List.mem_of_getLast? hc)
    rw [beq_eq_false_iff_ne]
    rintro rfl
    exact absurd hblank (by decide)
  rw [List.takeWhile_append_of_pos hplain, ← List.append_assoc] at hline
  obtain ⟨rest, hrest⟩ := isPrefix_rdropWhile (after.takeWhile (· != '\n')) hlast
  rw [hline, ← hrest, List.append_assoc, hcolumn, List.drop_left]
  exact List.prefix_append text rest

end

/-! ## Tokens and stray characters -/

theorem isBlank_eq_false_of_isAlphanumeric {c : Char} (h : isAlphanumeric c = true) :
    isBlank c = false := by
  rw [isAlphanumeric, Bool.or_eq_true] at h
  rcases h with h | h
  · exact isBlank_eq_false_of_isAlphabetic h
  · exact covers_eq_false_of_apart (by decide +kernel) h

theorem Lexeme.Fits.isBlank_eq_false {l : Lexeme} {after : List Char} (h : l.Fits after)
    (htoken : l.isToken = true) : ∀ c ∈ l.chars, isBlank c = false := by
  cases l with
  | word => exact fun c hc => isBlank_eq_false_of_isAlphanumeric (h.2.1 c hc)
  | number => exact fun c hc => isBlank_eq_false_of_isDigit (h.2.1 c hc)
  | mark m =>
    rintro c hc
    rw [List.mem_singleton.1 hc]
    cases m <;> decide
  | blank | comment | stray => cases htoken

/-- A lexeme with the text before it stands behind that text. -/
theorem stands_of_mem_preceded {before before' : List Char} {l : Lexeme} {ls : List Lexeme}
    (h : (before', l) ∈ preceded before ls) :
    l ∈ ls ∧ Stands (before ++ ls.flatMap Lexeme.chars) (.behind before') l.chars := by
  induction ls generalizing before with
  | nil => exact absurd h List.not_mem_nil
  | cons first ls ih =>
    rcases List.mem_cons.1 h with heq | h
    · obtain ⟨rfl, rfl⟩ := Prod.mk.inj heq
      exact ⟨List.mem_cons_self, _, _, by rw [List.flatMap_cons], rfl⟩
    · obtain ⟨hl, hstands⟩ := ih h
      rw [List.append_assoc, ← List.flatMap_cons] at hstands
      exact ⟨List.mem_cons_of_mem _ hl, hstands⟩

theorem Lexeme.IsKind.isToken {names : NameTable} {opened : Bool} {l : Lexeme} {kind : TokenKind}
    (h : l.IsKind names opened kind) : l.isToken = true := by
  cases h <;> rfl

/-- Each token is one of the lexemes, at the place of that. -/
theorem Tokenizes.exists_lexeme {names : NameTable} {last : Option Token}
    {pieces : List (List Char × Lexeme)} {ts : List Token} (h : Tokenizes names last pieces ts) :
    ∀ t ∈ ts, ∃ before l, (before, l) ∈ pieces ∧ l.isToken = true ∧ t.text = String.ofList l.chars ∧
      t.position = .behind before := by
  induction h with
  | nil => exact fun t ht => absurd ht List.not_mem_nil
  | skip _ _ ih =>
    intro t ht
    obtain ⟨before, l, hmem, hrest⟩ := ih t ht
    exact ⟨before, l, List.mem_cons_of_mem _ hmem, hrest⟩
  | @token _ before l _ t _ htext hposition hkind _ ih =>
    refine List.forall_mem_cons.2
      ⟨⟨before, l, List.mem_cons_self, hkind.isToken, htext, hposition⟩, fun u hu => ?_⟩
    obtain ⟨before', l', hmem, hrest⟩ := ih u hu
    exact ⟨before', l', List.mem_cons_of_mem _ hmem, hrest⟩

section

variable {names : NameTable} {source : List Char}

theorem stands_of_mem_tokens {t : Token} (h : t ∈ (scan names source).tokens) :
    t.text.toList ≠ [] ∧ (∀ c ∈ t.text.toList, isBlank c = false) ∧
      Stands source t.position t.text.toList := by
  have htokens : Tokenizes (scan names source).names none (preceded [] (lexemes source))
      (scan names source).tokens :=
    tokenizes_tokensFrom [] (lexemes source) rfl List.prefix_rfl
  obtain ⟨before, l, hmem, htoken, htext, hposition⟩ := htokens.exists_lexeme t h
  obtain ⟨hl, hstands⟩ := stands_of_mem_preceded hmem
  obtain ⟨after, hfits⟩ := (splits_lexemes source).exists_fits l hl
  rw [List.nil_append, lexemes_flatMap_chars] at hstands
  rw [htext, String.toList_ofList, hposition]
  exact ⟨hfits.chars_ne_nil, hfits.isBlank_eq_false htoken, hstands⟩

theorem stands_of_mem_strays {p : Position} {c : Char} (h : (p, c) ∈ (scan names source).strays) :
    isBlank c = false ∧ Stands source p [c] := by
  have hstrays : (scan names source).strays = _ := placedStrays_placed [] (lexemes source)
  rw [hstrays, List.mem_map] at h
  obtain ⟨⟨before, c'⟩, hmem, heq⟩ := h
  obtain ⟨rfl, rfl⟩ := Prod.mk.inj heq
  obtain ⟨⟨before', l⟩, hpiece, hl⟩ := List.mem_filterMap.1 hmem
  cases l with
  | stray c =>
    obtain ⟨rfl, rfl⟩ := Prod.mk.inj (Option.some.inj hl)
    obtain ⟨hl, hstands⟩ := stands_of_mem_preceded hpiece
    obtain ⟨after, hfits⟩ := (splits_lexemes source).exists_fits _ hl
    rw [List.nil_append, lexemes_flatMap_chars] at hstands
    exact ⟨hfits.1, hstands⟩
  | word | number | mark | blank | comment => cases hl

theorem stands_finish : Stands source (scan names source).finish.position [] :=
  ⟨source, [], by simp, Position.after_behind [] source⟩

end

/-! ## Diagnostics -/

/-- The lines of a text that is laid out as a diagnostic is. -/
theorem toList_layout (head place line margin foot : String) :
    (head ++ (place ++ ":\n") ++ (line ++ "\n") ++ margin ++ "^\n" ++ foot).toList =
      (head ++ place ++ ":").toList ++ '\n' :: (line.toList ++ '\n' ::
        ((margin.toList ++ ['^']) ++ '\n' :: foot.toList)) := by
  simp

/-- A diagnostic as text has the caret right below the source line. -/
theorem splitOn_render {d : Diagnostic} (hline : '\n' ∉ d.lineText.toList) :
    ∃ above below, d.render.toList.splitOn '\n' =
      above ++ d.lineText.toList :: (List.replicate d.position.column ' ' ++ ['^']) :: below := by
  set margin := String.ofList (List.replicate d.position.column ' ') with hmargin
  have hcaret : '\n' ∉ margin.toList ++ ['^'] := by
    simp [hmargin, List.mem_replicate]
  have hrender : d.render.toList = _ :=
    toList_layout (s!"Error - {d.kind.name}: {d.message}\n")
      (s!"Line {d.position.line + 1} Char {d.position.column + 1}") d.lineText margin
      (s!"Description: {d.kind.description}")
  rw [hrender, splitOn_append_cons, splitOn_append_cons, splitOn_append_cons,
    splitOn_of_notMem hline, splitOn_of_notMem hcaret, hmargin, String.toList_ofList]
  exact ⟨_, _, rfl⟩

/-- What a text has at a place that a diagnostic may point at. -/
inductive Scan.Marks (s : Scan) : Position → List Char → Prop where
  | stray {p : Position} {c : Char} : (p, c) ∈ s.strays → Marks s p [c]
  | token {t : Token} : t ∈ s.tokens → Marks s t.position t.text.toList

theorem Scan.Marks.stands {names : NameTable} {source text : List Char} {p : Position}
    (h : (scan names source).Marks p text) :
    text ≠ [] ∧ (∀ c ∈ text, isBlank c = false) ∧ Stands source p text := by
  cases h with
  | stray hstray =>
    obtain ⟨hblank, hstands⟩ := stands_of_mem_strays hstray
    exact ⟨List.cons_ne_nil _ [], List.forall_mem_singleton.2 hblank, hstands⟩
  | token htoken => exact stands_of_mem_tokens htoken

/-- A diagnostic points at a text that it is about. -/
structure Diagnostic.PointsAt (d : Diagnostic) (source : List Char) (s : Scan) : Prop where
  /-- The line that is shown is the piece of the source at the place, without the carriage returns
  at its end. -/
  line : ∃ piece, (source.splitOn '\n')[d.position.line]? = some piece ∧
    d.lineText.toList = piece.rdropWhile (· == '\r')
  /-- From the place on, the line goes on with a stray character or a token, unless it is the end of
  the file. -/
  mark : d.position = s.finish.position ∨
    ∃ text ≠ [], s.Marks d.position text ∧ text <+: d.lineText.toList.drop d.position.column
  /-- Below the line there is the caret, as far from the left as the place is. -/
  caret : ∃ above below, d.render.toList.splitOn '\n' =
    above ++ d.lineText.toList :: (List.replicate d.position.column ' ' ++ ['^']) :: below

theorem Stands.pointsAt {source text : List Char} {i : Issue} {s : Scan}
    (h : Stands source i.position text)
    (hmark : let d := i.diagnostic (sourceLines source).toArray
      d.position = s.finish.position ∨
        ∃ text ≠ [], s.Marks d.position text ∧ text <+: d.lineText.toList.drop d.position.column) :
    (i.diagnostic (sourceLines source).toArray).PointsAt source s where
  line := by
    obtain ⟨before, after, -, hpiece, hline⟩ := h.exists_line
    exact ⟨_, hpiece, hline⟩
  mark := hmark
  caret := splitOn_render h.newline_notMem

/-- **Carets.** Whatever the text and the board that it is read onto, each diagnostic shows the line
of its place, and its caret is below a stray character, the beginning of a token, or the end of the
file. -/
theorem readOnto_pointsAt (b : Board) (limit : Nat) (source : String) :
    ∀ d ∈ (readOnto b limit source).diagnostics,
      d.PointsAt source.toList (scan b.names source.toList) := by
  set scanned := scan b.names source.toList
  have hplaces : InPlaces (scanned.tokens ++ [scanned.finish]) :=
    (List.pairwise_map.1 (pairwise_places b.names source.toList)).imp le_of_lt
  obtain ⟨found, hfound, hon⟩ := addsOn_readFile limit rfl hplaces
    { circuit := b.circuit, probes := b.probes }
  rw [List.nil_append] at hfound
  intro d hd
  obtain ⟨i, hi, rfl⟩ := List.mem_map.1 hd
  have hplace : i.position = scanned.finish.position ∨ ∃ text, scanned.Marks i.position text := by
    rcases List.mem_append.1 hi with hi | hi
    · obtain ⟨⟨p, c⟩, hstray, rfl⟩ := List.mem_map.1 hi
      exact .inr ⟨[c], .stray hstray⟩
    · rw [hfound] at hi
      obtain ⟨t, ht, hposition⟩ := hon i hi
      rw [hposition]
      rcases List.mem_append.1 ht with ht | ht
      · exact .inr ⟨_, .token ht⟩
      · exact .inl (congrArg Token.position (List.mem_singleton.1 ht))
  rcases hplace with hend | ⟨text, hmarks⟩
  · have hstands : Stands source.toList i.position [] := hend ▸ stands_finish
    exact hstands.pointsAt (.inl hend)
  · obtain ⟨hne, hblank, hstands⟩ := hmarks.stands
    exact hstands.pointsAt (.inr ⟨text, hne, hmarks, hstands.isPrefix_lineText hne hblank⟩)

/-- A stray character behind letters that take more than one byte, on a line with a carriage return
at its end. -/
theorem pointsAt_stray :
    let source := "[devices]\r\nÄé$ = SWITCH(0);\r\n[conns]\n[monit]\n"
    let d : Diagnostic :=
      ⟨.invalidCharacter, "Unexpected character '$'", ⟨1, 2⟩, "Äé$ = SWITCH(0);"⟩
    d ∈ (readOnto (.empty 20) 500 source).diagnostics ∧
      d.PointsAt source.toList (scan NameTable.empty source.toList) :=
  have hmem : _ ∈ (readOnto (.empty 20) 500 _).diagnostics := by decide +kernel
  ⟨hmem, readOnto_pointsAt _ _ _ _ hmem⟩

end Definition

end Breadboard
