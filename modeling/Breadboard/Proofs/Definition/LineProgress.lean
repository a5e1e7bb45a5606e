import Breadboard.Proofs.Definition.InFile

/-!
# Progress of lines

A reader of a line takes at least one token and leaves the tokens of other lines and sections alone.
So the lines of a section come to an end at the next section, however many of them are allowed.

* `EndsLine.exists_taken`: what a reader of a line takes.
* `InFile.readLines_eq`: the lines of a section end where the next section begins.
* `readLines_eq_of_length_le`: a limit that is not less than the tokens of a section is not reached.
* `readLine_progress`: all this for the readers of the three sections, and for whole readings.
-/
namespace Breadboard.Definition

variable {c c' : Cursor} {ts : List Token} {d : Draft} {x : Cursor × Draft}

/-! ## What a line takes -/

namespace EndsLine

/-- What a reader of a line takes, and where it stands then. -/
theorem exists_taken (h : EndsLine c d x) (hat : ¬c.AtSection) :
    ∃ taken ≠ [], c.ahead = taken ++ x.1.ahead ∧ x.1.stop = c.stop ∧
      x.1.previous = taken.getLastD c.previous ∧ (∀ t ∈ taken, t.isMark .openSquare = false) ∧
      (∀ t ∈ taken.dropLast, t.isMark .semicolon = false) ∧
      (x.1.previous.isMark .semicolon = true ∨
        x.1.previous.isMark .semicolon = false ∧ (x.1.AtSection ∨
          ¬x.1.AtSection ∧ x.1.isAt .semicolon = false ∧
          x.1.previous.position.line < x.1.current.position.line ∧
          ∃ found, x.2.issues = d.issues ++ found ++
            [(Fault.missingSemicolon x.1.previous).on x.1.previous])) := by
  have hplain : ∀ {ts c'}, c.Walks ts c' → ts ≠ [] → c'.previous.isMark .semicolon = false :=
    fun hwalks hts => hwalks.plain _ (hwalks.previous_mem hts)
  cases h with
  | @semicolon ts c' d' hwalks hat' hsemicolon =>
    obtain ⟨t, rest, hahead, hopen⟩ := Cursor.not_atSection_iff.1 hat'
    rw [Cursor.isAt, Cursor.current_cons hahead] at hsemicolon
    dsimp only
    rw [Cursor.advance_cons hahead]
    refine ⟨ts ++ [t], by simp, ?_, hwalks.stop, by simp, ?_, ?_, .inl hsemicolon⟩
    · rw [hwalks.ahead, hahead, List.append_assoc]
      rfl
    · exact List.forall_mem_append.2 ⟨hwalks.inside, List.forall_mem_singleton.2 hopen⟩
    · rw [List.dropLast_concat]
      exact hwalks.plain
  | @atSection ts c' d' hwalks hat' =>
    have hts : ts ≠ [] := by
      rintro rfl
      rw [hwalks.eq_of_nil] at hat'
      exact hat hat'
    exact ⟨ts, hts, hwalks.ahead, hwalks.stop, hwalks.previous, hwalks.inside,
      fun t ht => hwalks.plain t (List.mem_of_mem_dropLast ht), .inr ⟨hplain hwalks hts, .inl hat'⟩⟩
  | @nextLine ts c' d' hwalks hts hsemicolon hline hleads =>
    refine ⟨ts, hts, hwalks.ahead, hwalks.stop, hwalks.previous, hwalks.inside,
      fun t ht => hwalks.plain t (List.mem_of_mem_dropLast ht), .inr ⟨hplain hwalks hts, ?_⟩⟩
    by_cases hat' : c'.AtSection
    · exact .inl hat'
    · obtain ⟨found, hfound⟩ := hleads.issues_isPrefix
      refine .inr ⟨hat', hsemicolon, hline, found, ?_⟩
      rw [hfound]
      rfl

theorem length_lt (h : EndsLine c d x) (hat : ¬c.AtSection) :
    x.1.ahead.length < c.ahead.length := by
  obtain ⟨taken, hne, hahead, -⟩ := h.exists_taken hat
  have hpos := List.length_pos_of_ne_nil hne
  rw [hahead, List.length_append]
  omega

/-- A line ends before the next section. -/
theorem toSection_eq (h : EndsLine c d x) : x.1.toSection = c.toSection := by
  cases h with
  | semicolon hwalks hat =>
    rw [Cursor.toSection_advance hat, hwalks.toSection_eq]
  | atSection hwalks | nextLine hwalks => exact hwalks.toSection_eq

end EndsLine

/-! ## The lines of a section -/

def InFile.readLines (s : Section) (limit read : Nat) (c : Cursor) (d : Draft) : Cursor × Draft :=
  if c.AtSection then (c, d)
  else if read = limit then (c.toSection, d.report ((Fault.tooManyLines limit s).on c.current))
  else InFile.readLines s limit (read + 1) (InFile.readLine s c d).1 (InFile.readLine s c d).2
termination_by c.ahead.length
decreasing_by exact (readLine_follows s c d).ends.length_lt ‹_›

/-- The lines of a section are read in the file as they are in the section, and end where the next
section begins. -/
theorem InFile.readLines_eq (s : Section) (limit read : Nat) (c : Cursor) (d : Draft)
    (hread : read ≤ limit) :
    InFile.readLines s limit read c d =
      (c.toSection, Definition.readLines s limit (limit - read) c.inSection d) := by
  fun_induction InFile.readLines s limit read c d with
  | case1 read c d hat =>
    have hend := Cursor.ahead_inSection_eq_nil_iff.2 hat
    rw [Cursor.toSection_of_atSection hat]
    cases limit - read <;> simp only [Definition.readLines, if_pos hend]
  | case2 c d hat =>
    have hend := mt Cursor.ahead_inSection_eq_nil_iff.1 hat
    rw [Nat.sub_self, Definition.readLines, if_neg hend, Cursor.current_inSection]
  | case3 read c d hat hlimit ih =>
    have hend := mt Cursor.ahead_inSection_eq_nil_iff.1 hat
    obtain ⟨hends, hagrees⟩ := readLine_follows s c d
    obtain ⟨left, hleft⟩ : ∃ left, limit - read = left + 1 := ⟨limit - read - 1, by omega⟩
    rw [ih (by omega), hends.toSection_eq, hleft, Definition.readLines, if_neg hend, hagrees,
      show limit - (read + 1) = left by omega]

/-! ## Limits that are not reached -/

/-- A cursor that has no opening square bracket ahead is in its section. -/
theorem Cursor.inSection_eq_self (h : ∀ t ∈ c.ahead, t.isMark .openSquare = false) :
    c.inSection = c := by
  have hall : ∀ t ∈ c.ahead, (!t.isMark .openSquare) = true := by simpa using h
  have hstop : c.toSection.current = c.stop := by
    rw [current, ahead_toSection, List.dropWhile_eq_nil_iff.2 hall, stop_toSection, List.headD_nil]
  rw [inSection, List.takeWhile_eq_self_iff.2 hall, hstop]

theorem length_readLine_lt (s : Section) (d : Draft)
    (hinside : ∀ t ∈ c.ahead, t.isMark .openSquare = false) (hne : c.ahead ≠ []) :
    (readLine s c d).1.ahead.length < c.ahead.length := by
  obtain ⟨hends, hagrees⟩ := readLine_follows s c d
  rw [Cursor.inSection_eq_self hinside] at hagrees
  have hat : ¬c.AtSection := by
    rw [← Cursor.ahead_inSection_eq_nil_iff, Cursor.inSection_eq_self hinside]
    exact hne
  rw [hagrees]
  exact (List.takeWhile_sublist _).length_le.trans_lt (hends.length_lt hat)

/-- Each line takes a token, so a section has at most as many lines as tokens. -/
theorem readLines_eq_of_length_le (s : Section) {limit limit' left left' : Nat}
    (hinside : ∀ t ∈ c.ahead, t.isMark .openSquare = false) (hleft : c.ahead.length ≤ left)
    (hleft' : c.ahead.length ≤ left') (d : Draft) :
    readLines s limit left c d = readLines s limit' left' c d := by
  induction left generalizing c d left' with
  | zero =>
    have hnil : c.ahead = [] := List.length_eq_zero_iff.1 (Nat.le_zero.1 hleft)
    cases left' <;> simp only [readLines, if_pos hnil]
  | succ left ih =>
    by_cases hnil : c.ahead = []
    · cases left' <;> simp only [readLines, if_pos hnil]
    · have hpos := List.length_pos_of_ne_nil hnil
      have hlt := length_readLine_lt s d hinside hnil
      obtain ⟨left', rfl⟩ : ∃ m, left' = m + 1 := ⟨left' - 1, by omega⟩
      simp only [readLines, if_neg hnil]
      exact ih (fun t ht => hinside t ((suffix_readLine s c d).subset ht)) (by omega) (by omega) _

theorem enter_eq_of_length_le (p : Progress) (reported : List Section) {limit limit' : Nat}
    (s : Section) (heading : Token) (hinside : ∀ t ∈ c.ahead, t.isMark .openSquare = false)
    (hlimit : c.ahead.length ≤ limit) (hlimit' : c.ahead.length ≤ limit') :
    p.enter reported limit s heading c = p.enter reported limit' s heading c := by
  have hlines : ∀ d, readLines s limit limit c d = readLines s limit' limit' c d :=
    readLines_eq_of_length_le s hinside hlimit hlimit'
  simp only [Progress.enter, hlines]

theorem readChunk_eq_of_length_le (p : Progress) (reported : List Section) {limit limit' : Nat}
    {chunk : Chunk} (hinside : ∀ t ∈ chunk.body, t.isMark .openSquare = false)
    (hlimit : chunk.body.length ≤ limit) (hlimit' : chunk.body.length ≤ limit') :
    p.readChunk reported limit chunk = p.readChunk reported limit' chunk := by
  have henter : ∀ (p : Progress) (s : Section) (t : Token) {c : Cursor},
      c.ahead <:+ chunk.body → p.enter reported limit s t c = p.enter reported limit' s t c :=
    fun p s t _ h => enter_eq_of_length_le p reported s t (fun u hu => hinside u (h.subset hu))
      (h.length_le.trans hlimit) (h.length_le.trans hlimit')
  have hbody := chunk.cursor.suffix_advance
  rw [readChunk_eq, readChunk_eq]
  split
  · dsimp only
    split
    · exact henter _ _ _ (chunk.cursor.advance.suffix_advance.trans hbody)
    · exact henter _ _ _ hbody
  · rfl

/-- A limit that is not less than the tokens of a file plays no part in reading it. -/
theorem readFile_eq_of_length_le {limit limit' : Nat} (finish : Token)
    (hlimit : ts.length ≤ limit) (hlimit' : ts.length ≤ limit') (d : Draft) :
    readFile limit ts finish d = readFile limit' ts finish d := by
  have hchunk : ∀ (reported : List Section) (p : Progress), ∀ chunk ∈ (chunks finish ts).2,
      p.readChunk reported limit chunk = p.readChunk reported limit' chunk := by
    intro reported p chunk hchunk
    have hlength := (among_of_mem_chunks finish ts chunk hchunk).length_le
    simp only [Chunk.tokens, List.length_append, List.length_cons, List.length_nil] at hlength
    exact readChunk_eq_of_length_le p reported (cut_of_mem_chunks chunk hchunk).body (by omega)
      (by omega)
  simp only [readFile, List.foldl_ext _ _ _ (hchunk _)]

/-! ## Progress -/

/-- The tokens from the cursor on are those of a file: the last one, and no other, is its end. -/
structure Cursor.InStream (c : Cursor) : Prop where
  stop : c.stop.kind = .endOfFile
  ahead : ∀ t ∈ c.ahead, t.kind ≠ .endOfFile

theorem Cursor.InStream.of_append (h : c.InStream) (hahead : c.ahead = ts ++ c'.ahead)
    (hstop : c'.stop = c.stop) : c'.InStream :=
  ⟨hstop ▸ h.stop, fun t ht => h.ahead t (hahead ▸ List.mem_append_right ts ht)⟩

theorem Cursor.InStream.atSection_iff (h : c.InStream) :
    c.AtSection ↔ c.current.kind = .mark .openSquare ∨ c.current.kind = .endOfFile := by
  rw [Cursor.atSection_iff]
  cases hahead : c.ahead with
  | nil => simp [current, hahead, h.stop]
  | cons t rest =>
    have ht : t.kind ≠ .endOfFile := h.ahead t (hahead ▸ List.mem_cons_self)
    simp [current_cons hahead, Token.isMark, ht]

/-- **Progress.** A reader of a line that starts at a token of a section takes some tokens, none of
them an opening square bracket or the end of the file, and none behind the first semicolon. It ends
behind that semicolon; or, if there is none, at the next section or the end of the file; or else, if
it has just reported that the semicolon is missing, at the first token of a later line of the text.
It does in the file what it does with the tokens of its section.

So the lines of a section can be read without counting them: they end where the next section begins.
From a limit that is the number of tokens of a text on, the text is read in the same way with every
limit. -/
theorem readLine_progress (s : Section) (d : Draft) (hstream : c.InStream)
    (hopen : c.current.kind ≠ .mark .openSquare) (hend : c.current.kind ≠ .endOfFile) :
    let r := InFile.readLine s c d
    readLine s c.inSection d = (r.1.inSection, r.2) ∧
    (∃ taken ≠ [], c.ahead = taken ++ r.1.ahead ∧ r.1.stop = c.stop ∧
      r.1.previous = taken.getLastD c.previous ∧
      (∀ t ∈ taken, t.kind ≠ .mark .openSquare ∧ t.kind ≠ .endOfFile) ∧
      (∀ t ∈ taken.dropLast, t.kind ≠ .mark .semicolon) ∧
      (r.1.previous.kind = .mark .semicolon ∨
        r.1.previous.kind ≠ .mark .semicolon ∧
          (r.1.current.kind = .mark .openSquare ∨ r.1.current.kind = .endOfFile ∨
            r.1.current.kind ∉ [.mark .semicolon, .mark .openSquare, .endOfFile] ∧
              r.1.previous.position.line < r.1.current.position.line ∧
              ∃ found, r.2.issues = d.issues ++ found ++
                [(Fault.missingSemicolon r.1.previous).on r.1.previous]))) ∧
    (∀ limit, InFile.readLines s limit 0 c d =
      (c.toSection, readLines s limit limit c.inSection d)) ∧
    ∀ b limit source, (scan b.names source.toList).tokens.length ≤ limit →
      readOnto b limit source = readOnto b (scan b.names source.toList).tokens.length source := by
  intro r
  have hat : ¬c.AtSection := by
    rw [hstream.atSection_iff]
    exact not_or.2 ⟨hopen, hend⟩
  obtain ⟨hends, hagrees⟩ := readLine_follows s c d
  refine ⟨hagrees, ?_, fun limit => ?_, fun b limit source hlimit => ?_⟩
  · obtain ⟨taken, hne, hahead, hstop, hprevious, hinside, hplain, hending⟩ := hends.exists_taken hat
    refine ⟨taken, hne, hahead, hstop, hprevious, fun t ht => ⟨?_, ?_⟩, fun t ht => ?_, ?_⟩
    · simpa [Token.isMark] using hinside t ht
    · exact hstream.ahead t (hahead ▸ List.mem_append_left _ ht)
    · simpa [Token.isMark] using hplain t ht
    · have hlater := (hstream.of_append hahead hstop).atSection_iff
      rcases hending with hsemicolon | ⟨hsemicolon, hending⟩
      · exact .inl (by simpa [Token.isMark] using hsemicolon)
      · refine .inr ⟨by simpa [Token.isMark] using hsemicolon, ?_⟩
        rcases hending with hsection | ⟨hsection, hnext, hline⟩
        · exact (hlater.1 hsection).imp_right .inl
        · obtain ⟨hcurrent, hcurrent'⟩ := not_or.1 (mt hlater.2 hsection)
          have hnext : r.1.current.kind ≠ .mark .semicolon := by
            simpa [Cursor.isAt, Token.isMark] using hnext
          refine .inr (.inr ⟨?_, hline⟩)
          simp only [List.mem_cons, List.not_mem_nil, or_false, not_or]
          exact ⟨hnext, hcurrent, hcurrent'⟩
  · exact InFile.readLines_eq s limit 0 c d (Nat.zero_le limit)
  · simp only [readOnto, readFile_eq_of_length_le _ hlimit (Nat.le_refl _)]

/-- The semicolon of the first line is missing, and the second line is left alone. -/
theorem readLine_progress_unended :
    let scanned := scan NameTable.empty "a = SWITCH\nb = SWITCH;".toList
    let c : Cursor := ⟨scanned.finish, scanned.tokens, scanned.finish⟩
    let d : Draft := { circuit := (Board.empty 20).circuit, probes := (Board.empty 20).probes }
    let r := InFile.readLine .devices c d
    (c.InStream ∧ c.current.kind ≠ .mark .openSquare ∧ c.current.kind ≠ .endOfFile) ∧
      readLine .devices c.inSection d = (r.1.inSection, r.2) ∧
      (∃ taken ≠ [], c.ahead = taken ++ r.1.ahead ∧
        ∀ t ∈ taken.dropLast, t.kind ≠ .mark .semicolon) ∧
      r.1.current.text = "b" ∧ r.2.issues.map (·.fault.kind) = [.syntaxError] := by
  intro scanned c d r
  have hstream : c.InStream := ⟨rfl, by decide +kernel⟩
  have hstart : c.current.kind ≠ .mark .openSquare ∧ c.current.kind ≠ .endOfFile := by
    decide +kernel
  obtain ⟨hagrees, ⟨taken, hne, hahead, -, -, -, hplain, -⟩, -⟩ :=
    readLine_progress .devices d hstream hstart.1 hstart.2
  exact ⟨⟨hstream, hstart⟩, hagrees, ⟨taken, hne, hahead, hplain⟩, by decide +kernel⟩

end Breadboard.Definition
