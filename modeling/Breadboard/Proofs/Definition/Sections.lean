import Breadboard.Proofs.Definition.WellFormed
import Mathlib.Data.Set.List

/-!
# Files

The reader of files and the grammar agree.

* `readChunk_sound`, `readChunk_complete`: a piece of a file is read without issues if it is the
  section that comes next.
* `readFile_sound`, `readFile_complete`: a file is read without issues if it is a well-formed
  definition, and then the draft is the one of its layout.
-/
namespace Breadboard.Definition

variable {names : NameTable} {passLimit limit : Nat} {d : Draft} {k : Layout} {s : Section}
  {finish : Token}

/-! ## Pieces of a file -/

def Chunk.tokens (chunk : Chunk) : List Token := chunk.opening :: chunk.body

/-- The cursor behind the opening bracket. -/
def Chunk.cursor (chunk : Chunk) : Cursor := ⟨chunk.opening, chunk.body, chunk.stop⟩

/-- The piece is one of a file. -/
structure Chunk.Proper (names : NameTable) (chunk : Chunk) : Prop where
  opening : chunk.opening.symbol? = some (.mark .openSquare)
  cursor : chunk.cursor.Proper names

theorem isMark_iff {t : Token} {m : Mark} : t.isMark m = true ↔ t.symbol? = some (.mark m) := by
  rw [Token.symbol?_eq_mark_iff, Token.isMark, decide_eq_true_iff]

/-- Put end to end, the pieces of a file are the file. -/
theorem chunks_flatMap_tokens (finish : Token) (ts : List Token) :
    (chunks finish ts).1 ++ (chunks finish ts).2.flatMap Chunk.tokens = ts := by
  induction ts with
  | nil => rfl
  | cons t ts ih =>
    simp only [chunks]
    split
    · simpa [Chunk.tokens] using ih
    · simpa using ih

theorem proper_of_mem_chunks {ts : List Token} (hfinish : finish.symbol? = none)
    (hts : ∀ t ∈ ts, t.Numbered names) :
    ∀ chunk ∈ (chunks finish ts).2, chunk.Proper names := by
  induction ts with
  | nil => simp [chunks]
  | cons t ts ih =>
    have hrest := ih fun u hu => hts u (List.mem_cons_of_mem t hu)
    simp only [chunks]
    split
    · rename_i hopen
      refine List.forall_mem_cons.2 ⟨⟨isMark_iff.1 hopen, fun s hs => ?_, fun u hu => ?_⟩, hrest⟩
      · -- the piece ends with the next one or with the file
        cases hmore : (chunks finish ts).2 with
        | nil =>
          have hs : finish.symbol? = some s := by simpa [Chunk.cursor, hmore] using hs
          rw [hfinish] at hs
          cases hs
        | cons chunk more =>
          have hs : chunk.opening.symbol? = some s := by simpa [Chunk.cursor, hmore] using hs
          rw [(hrest chunk (hmore ▸ List.mem_cons_self)).opening] at hs
          exact (Option.some.inj hs).symm
      · refine hts u (List.mem_cons_of_mem t ?_)
        rw [← chunks_flatMap_tokens finish ts]
        exact List.mem_append_left _ hu
    · exact hrest

theorem chunks_append {body rest : List Token} (h : ∀ t ∈ body, t.isMark .openSquare = false) :
    chunks finish (body ++ rest) =
      (body ++ (chunks finish rest).1, (chunks finish rest).2) := by
  induction body with
  | nil => rfl
  | cons t body ih =>
    obtain ⟨ht, hbody⟩ := List.forall_mem_cons.1 h
    simp [chunks, ht, ih hbody]

/-! ## Symbols of lines -/

theorem eq_comma_or_of_mem_separated {α : Type} {symbols : α → List Symbol} {xs : List α}
    {x : Symbol} (h : x ∈ separated symbols xs) : x = .mark .comma ∨ ∃ a ∈ xs, x ∈ symbols a := by
  induction xs with
  | nil => cases h
  | cons a rest ih =>
    by_cases hrest : rest = []
    · subst hrest
      exact Or.inr ⟨a, List.mem_cons_self, h⟩
    · rw [separated_cons hrest, List.mem_append, List.mem_cons] at h
      rcases h with h | h | h
      · exact Or.inr ⟨a, List.mem_cons_self, h⟩
      · exact Or.inl h
      · rcases ih h with h | ⟨b, hb, h⟩
        · exact Or.inl h
        · exact Or.inr ⟨b, List.mem_cons_of_mem a hb, h⟩

/-- The marks that stand within a line. -/
def Mark.Inner (m : Mark) : Prop := m ≠ .semicolon ∧ m ≠ .openSquare

theorem Signal.inner_of_mem_symbols {s : Signal} {m : Mark} (h : .mark m ∈ s.symbols) :
    m.Inner := by
  cases hpin : s.pin with
  | none => simp [Signal.symbols, hpin] at h
  | some pin =>
    obtain rfl : m = .dot := by simpa [Signal.symbols, hpin] using h
    exact ⟨by decide, by decide⟩

theorem inner_of_mem_separated {α : Type} {symbols : α → List Symbol} {xs : List α} {m : Mark}
    (hs : ∀ x ∈ xs, .mark m ∈ symbols x → m.Inner) (h : .mark m ∈ separated symbols xs) :
    m.Inner := by
  obtain h | ⟨x, hx, h⟩ := eq_comma_or_of_mem_separated h
  · obtain rfl := Symbol.mark.inj h
    exact ⟨by decide, by decide⟩
  · exact hs x hx h

/-- Before its semicolon, a line has no marks but those within it. -/
theorem Line.inner_of_mem_content {l : Line} {m : Mark} (h : .mark m ∈ l.content) : m.Inner := by
  cases l with
  | device decl =>
    have h : .mark m ∈ nameSymbols decl.names ++
        .mark .equal :: .keyword decl.kind :: parameterSymbols decl.parameter := h
    rcases List.mem_append.1 h with h | h
    · exact inner_of_mem_separated (fun name _ hname => by simp at hname) h
    · cases hparameter : decl.parameter with
      | none =>
        obtain rfl : m = .equal := by simpa [parameterSymbols, hparameter] using h
        exact ⟨by decide, by decide⟩
      | some digits =>
        have hm : m = .equal ∨ m = .openBracket ∨ m = .closeBracket := by
          simpa [parameterSymbols, hparameter] using h
        rcases hm with rfl | rfl | rfl
        all_goals exact ⟨by decide, by decide⟩
  | connection decl =>
    have h : .mark m ∈ decl.target.symbols ++
        .mark .equal :: separated Signal.symbols decl.sources := h
    rcases List.mem_append.1 h with h | h
    · exact Signal.inner_of_mem_symbols h
    rcases List.mem_cons.1 h with h | h
    · obtain rfl := Symbol.mark.inj h
      exact ⟨by decide, by decide⟩
    · exact inner_of_mem_separated (fun _ _ => Signal.inner_of_mem_symbols) h
  | monitor decl => exact inner_of_mem_separated (fun _ _ => Signal.inner_of_mem_symbols) h

/-- An opening square bracket is not part of a line. -/
theorem Line.openSquare_notMem_symbols (l : Line) : Symbol.mark .openSquare ∉ l.symbols := by
  rw [symbols_eq, List.mem_append]
  rintro (h | h)
  · exact (inner_of_mem_content h).2 rfl
  · simp at h

/-! ## Sections -/

theorem eq_nil_of_foldl_report {ms : List Section} {issue : Section → Issue}
    (h : (ms.foldl (fun d m => d.report (issue m)) d).issues = []) : ms = [] := by
  cases ms with
  | nil => rfl
  | cons m rest =>
    have hbuilds := Draft.builds_foldl (fun d m => d.builds_report (issue m)) rest
      (d.report (issue m))
    exact absurd (hbuilds.leads.issues_eq_nil h) (d.report_issues_ne_nil _)

/-- Without issues, the section that is entered is the next one. -/
theorem enter_eq {p : Progress} {heading : Token} {body : Cursor}
    (h : (p.enter [] limit s heading body).draft.issues = []) :
    ∃ rest, p.due = s :: rest ∧
      p.enter [] limit s heading body = ⟨rest, readLines s limit limit body p.draft⟩ := by
  unfold Progress.enter at h ⊢
  split at h
  · rename_i hdue
    have hmissing := eq_nil_of_foldl_report ((builds_readLines _ _ _ _ _).leads.issues_eq_nil h)
    rw [if_pos hdue]
    obtain ⟨due, draft⟩ := p
    cases due with
    | nil => cases hdue
    | cons s' rest =>
      by_cases hs : s' = s
      · subst hs
        exact ⟨rest, rfl, by simp⟩
      · simp [hs] at hmissing
  · exact absurd h (Draft.report_issues_ne_nil _ _)

theorem enter_next {reported rest : List Section} {heading : Token} {body : Cursor} :
    Progress.enter ⟨s :: rest, d⟩ reported limit s heading body =
      ⟨rest, readLines s limit limit body d⟩ := by
  simp [Progress.enter]

variable {chunk : Chunk}

theorem readChunk_eq (reported : List Section) (limit : Nat) (p : Progress) (chunk : Chunk) :
    p.readChunk reported limit chunk =
      match chunk.cursor.current.kind with
      | .heading s _ =>
        let body := chunk.cursor.advance
        if body.isAt .closeSquare then p.enter reported limit s chunk.cursor.current body.advance
        else
          let fault := Fault.unclosedHeader s body.current
          { p with draft := p.draft.report (fault.on body.current) }.enter reported limit s
            chunk.cursor.current body
      | _ =>
        let fault := Fault.expectedHeading chunk.cursor.current
        { p with draft := p.draft.report (fault.on chunk.cursor.current) } := rfl

/-- A piece that is read without issues is the section that comes next. -/
theorem readChunk_sound {due due' : List Section} {d' : Draft} (hchunk : chunk.Proper names)
    (hk : k.Sound names)
    (h : Progress.readChunk [] limit ⟨due, k.draft names passLimit⟩ chunk = ⟨due', d'⟩)
    (hissues : d'.issues = []) :
    ∃ s ls, due = s :: due' ∧ s.IsBody limit ls ∧ Spelled chunk.tokens (s.symbols ls) ∧
      k.Admits ls ∧ (k.add (.ofLines ls)).Sound names ∧
      d' = (k.add (.ofLines ls)).draft names passLimit := by
  have hclean : (Progress.readChunk [] limit ⟨due, k.draft names passLimit⟩ chunk).draft.issues =
      [] := by rw [h]; exact hissues
  have hp := hchunk.cursor
  rw [readChunk_eq] at h hclean
  split at h
  · rename_i s id hkind
    simp only [hkind] at h hclean
    by_cases hclose : chunk.cursor.advance.isAt .closeSquare = true
    · rw [if_pos hclose] at h hclean
      obtain ⟨rest, rfl, henter⟩ := enter_eq hclean
      rw [henter] at h hclean
      obtain ⟨rfl, rfl⟩ := Progress.mk.inj h
      obtain ⟨ls, hlines, hspelled, hadmits, hsound, heq⟩ :=
        readLines_sound hp.advance.advance hk hclean
      refine ⟨s, ls, rfl, hlines, ?_, hadmits, hsound, heq⟩
      have hheading : chunk.cursor.current.symbol? = some (.heading s) :=
        Token.symbol?_eq_heading_iff.2 ⟨id, hkind⟩
      have hbody : chunk.cursor.ahead = _ :: _ := hp.ahead_eq hheading (by simp)
      have hrest : chunk.cursor.advance.ahead = _ :: _ :=
        hp.advance.ahead_eq (Cursor.isAt_iff.1 hclose) (by decide)
      rw [hrest] at hbody
      refine spelled_cons_iff.2 ⟨_, _, rfl, hchunk.opening, ?_⟩
      refine spelled_cons_iff.2 ⟨_, _, hbody, hheading, ?_⟩
      exact spelled_cons_iff.2 ⟨_, _, rfl, Cursor.isAt_iff.1 hclose, hspelled⟩
    · rw [if_neg hclose] at hclean
      exact absurd ((builds_enter _ _ _ _ _ _).leads.issues_eq_nil hclean)
        (Draft.report_issues_ne_nil _ _)
  · rename_i hkind
    obtain ⟨-, rfl⟩ := Progress.mk.inj h
    exact absurd hissues (Draft.report_issues_ne_nil _ _)

/-- Behind the header of the section that comes next, its lines are read. -/
theorem readChunk_of_header {reported rest : List Section} {e : Cursor}
    (hr : chunk.cursor.Reads [.heading s, .mark .closeSquare] e) (d : Draft) :
    Progress.readChunk reported limit ⟨s :: rest, d⟩ chunk = ⟨rest, readLines s limit limit e d⟩ := by
  obtain ⟨id, hkind⟩ := Token.symbol?_eq_heading_iff.1 hr.current
  have hclose : chunk.cursor.advance.isAt .closeSquare = true :=
    Cursor.isAt_iff.2 hr.advance.current
  simp only [readChunk_eq, hkind, hclose, if_true, enter_next, hr.advance.advance.eq]

/-- The section that comes next is read without issues. -/
theorem readChunk_complete (passLimit : Nat) {rest : List Section} {ls : List Line}
    (hchunk : chunk.Proper names) (hk : k.Sound names) (hlines : s.IsBody limit ls)
    (hspelled : Spelled chunk.tokens (s.symbols ls)) (hadmits : k.Admits ls) :
    (k.add (.ofLines ls)).Sound names ∧
      Progress.readChunk [] limit ⟨s :: rest, k.draft names passLimit⟩ chunk =
        ⟨rest, (k.add (.ofLines ls)).draft names passLimit⟩ := by
  obtain ⟨t, ts, htokens, -, hbody⟩ := spelled_cons_iff.1 hspelled
  obtain ⟨-, rfl⟩ := List.cons.inj htokens
  have hbody : Spelled chunk.cursor.ahead
      ([.heading s, .mark .closeSquare] ++ ls.flatMap Line.symbols) := hbody
  obtain ⟨e, hreads, hrest⟩ := Cursor.exists_reads_of_spelled hbody
  obtain ⟨hsound, hread⟩ := readLines_complete passLimit limit (hchunk.cursor.of_reads hreads) hk
    hlines hrest hadmits
  exact ⟨hsound, by rw [readChunk_of_header hreads, hread]⟩

/-! ## Files -/

theorem foldl_readChunk_sound {pieces : List Chunk} {due : List Section}
    (hpieces : ∀ chunk ∈ pieces, chunk.Proper names) (hk : k.Sound names)
    (h : pieces.foldl (Progress.readChunk [] limit) ⟨due, k.draft names passLimit⟩ = ⟨[], d⟩)
    (hissues : d.issues = []) :
    ∃ bodies : List (List Line), List.Forall₂ (·.IsBody limit ·) due bodies ∧
      Spelled (pieces.flatMap Chunk.tokens) (List.zipWith Section.symbols due bodies).flatten ∧
      k.Admits bodies.flatten := by
  induction pieces generalizing due k with
  | nil =>
    obtain ⟨rfl, -⟩ := Progress.mk.inj h
    exact ⟨[], .nil, rfl, trivial⟩
  | cons chunk pieces ih =>
    obtain ⟨hchunk, hpieces⟩ := List.forall_mem_cons.1 hpieces
    rw [List.foldl_cons] at h
    generalize hread : Progress.readChunk [] limit ⟨due, k.draft names passLimit⟩ chunk = p at h
    obtain ⟨due', d'⟩ := p
    have hd' : d'.issues = [] := by
      have hbuilds := builds_foldl_readChunk [] limit pieces ⟨due', d'⟩
      rw [h] at hbuilds
      exact hbuilds.leads.issues_eq_nil hissues
    obtain ⟨s, ls, rfl, hlines, hspelled, hadmits, hsound, rfl⟩ :=
      readChunk_sound hchunk hk hread hd'
    obtain ⟨bodies, hbodies, hspelled', hadmits'⟩ := ih hpieces hsound h
    refine ⟨ls :: bodies, .cons hlines hbodies, ?_, ?_⟩
    · exact spelled_append_iff.2 ⟨_, _, rfl, hspelled, hspelled'⟩
    · exact Layout.admits_append_iff.2 ⟨hadmits, hadmits'⟩

theorem chunks_of_spelled {due : List Section} {ts ws : List Token} {f : Section → List Line}
    (h : Spelled ts (due.flatMap fun s => s.symbols (f s))) (hws : (chunks finish ws).1 = []) :
    (chunks finish (ts ++ ws)).1 = [] := by
  cases due with
  | nil =>
    rw [spelled_nil_iff.1 h]
    exact hws
  | cons s rest =>
    obtain ⟨t, ts, rfl, ht, -⟩ := spelled_cons_iff.1 h
    simp [chunks, isMark_iff.2 ht]

/-- A piece ends where the next one begins. -/
theorem chunks_piece {opening : Token} {body ws : List Token}
    (hopening : opening.isMark .openSquare = true)
    (hbody : ∀ t ∈ body, t.isMark .openSquare = false) (hws : (chunks finish ws).1 = []) :
    chunks finish (opening :: body ++ ws) =
      ([], ⟨opening, body, ws.headD finish⟩ :: (chunks finish ws).2) := by
  have hstop : ((chunks finish ws).2.head?.map Chunk.opening).getD finish = ws.headD finish := by
    cases ws with
    | nil => rfl
    | cons w ws =>
      simp only [chunks] at hws ⊢
      split
      · rfl
      · rename_i hw
        simp [hw] at hws
  simp [chunks, hopening, chunks_append hbody, hws, hstop]

theorem isMark_openSquare_of_spelled {ts : List Token} {ss : List Symbol} (h : Spelled ts ss)
    (hss : .mark .openSquare ∉ ss) : ∀ t ∈ ts, t.isMark .openSquare = false := by
  intro t ht
  rw [← Bool.not_eq_true, isMark_iff]
  intro hmark
  have hmem : some (Symbol.mark .openSquare) ∈ ts.map Token.symbol? :=
    hmark ▸ List.mem_map_of_mem ht
  rw [show ts.map Token.symbol? = _ from h] at hmem
  exact hss (by simpa using hmem)

/-- The sections that come next are read without issues, and reading goes on behind them. -/
theorem foldl_readChunk_append (passLimit : Nat) {passed : List Section} (due : List Section)
    {ts : List Token} (ws : List Token) {f : Section → List Line} (hfinish : finish.symbol? = none)
    (hts : ∀ t ∈ ts ++ ws, t.Numbered names) (hk : k.Sound names)
    (hf : ∀ s : Section, s.IsBody limit (f s))
    (hspelled : Spelled ts (passed.flatMap fun s => s.symbols (f s)))
    (hadmits : k.Admits (passed.flatMap f)) (hws : (chunks finish ws).1 = []) :
    (k.add (.ofLines (passed.flatMap f))).Sound names ∧
      (chunks finish (ts ++ ws)).2.foldl (Progress.readChunk [] limit)
          ⟨passed ++ due, k.draft names passLimit⟩ =
        (chunks finish ws).2.foldl (Progress.readChunk [] limit)
          ⟨due, (k.add (.ofLines (passed.flatMap f))).draft names passLimit⟩ := by
  induction passed generalizing ts k with
  | nil =>
    rw [spelled_nil_iff.1 hspelled, List.flatMap_nil, Layout.add_ofLines_nil]
    exact ⟨hk, rfl⟩
  | cons s passed ih =>
    rw [List.flatMap_cons] at hspelled hadmits ⊢
    obtain ⟨us, vs, rfl, hus, hvs⟩ := spelled_append_iff.1 hspelled
    obtain ⟨opening, body, rfl, hopening, hbody⟩ := spelled_cons_iff.1 hus
    have hopen : ∀ t ∈ body, t.isMark .openSquare = false :=
      isMark_openSquare_of_spelled hbody (by simp [Line.openSquare_notMem_symbols])
    have hchunks := chunks_piece (isMark_iff.2 hopening) hopen (chunks_of_spelled hvs hws)
    rw [List.append_assoc] at hts ⊢
    have hproper : Chunk.Proper names ⟨opening, body, (vs ++ ws).headD finish⟩ :=
      proper_of_mem_chunks hfinish hts _ (by rw [hchunks]; exact List.mem_cons_self)
    obtain ⟨hhead, hrest⟩ := Layout.admits_append_iff.1 hadmits
    obtain ⟨hsound, hread⟩ := readChunk_complete passLimit hproper hk (hf s) hus hhead
    rw [hchunks, List.cons_append, List.foldl_cons, hread, Layout.add_ofLines_append]
    exact ih (fun t ht => hts t (List.mem_append_right _ ht)) hsound hvs hrest

theorem foldl_readChunk_complete (passLimit : Nat) {due : List Section} {ts : List Token}
    {f : Section → List Line} (hfinish : finish.symbol? = none)
    (hts : ∀ t ∈ ts, t.Numbered names) (hk : k.Sound names)
    (hf : ∀ s : Section, s.IsBody limit (f s))
    (hspelled : Spelled ts (due.flatMap fun s => s.symbols (f s)))
    (hadmits : k.Admits (due.flatMap f)) :
    (chunks finish ts).2.foldl (Progress.readChunk [] limit) ⟨due, k.draft names passLimit⟩ =
      ⟨[], (k.add (.ofLines (due.flatMap f))).draft names passLimit⟩ := by
  have hread := (foldl_readChunk_append passLimit [] [] hfinish (by simpa using hts) hk hf hspelled
    hadmits rfl).2
  rwa [List.append_nil, List.append_nil] at hread

/-- The lines of a section are declarations of its kind. -/
theorem Section.IsBody.exists_map_eq {α : Type} {line : α → Line} {ls : List Line}
    (h : s.IsBody limit ls) (hline : ∀ l : Line, l.home = s → ∃ decl, line decl = l) :
    ∃ decls : List α, decls.map line = ls := by
  have hrange : ls ∈ Set.range (List.map line) := by
    rw [Set.range_list_map]
    exact fun l hl => hline l (h.home l hl)
  exact hrange

/-- The bodies of all sections are the lines of a definition. -/
theorem SyntaxTree.exists_map_lines_eq {bodies : List (List Line)}
    (h : List.Forall₂ (·.IsBody limit ·) Section.all bodies) :
    ∃ t : SyntaxTree, Section.all.map t.lines = bodies := by
  rcases h with _ | ⟨hdevices, _ | ⟨hconns, _ | ⟨hmonit, ⟨⟩⟩⟩⟩
  obtain ⟨devices, rfl⟩ := hdevices.exists_map_eq fun l (hl : l.home = .devices) => by
    cases l with
    | device decl => exact ⟨decl, rfl⟩
    | connection decl | monitor decl => cases hl
  obtain ⟨connections, rfl⟩ := hconns.exists_map_eq fun l (hl : l.home = .conns) => by
    cases l with
    | connection decl => exact ⟨decl, rfl⟩
    | device decl | monitor decl => cases hl
  obtain ⟨monitors, rfl⟩ := hmonit.exists_map_eq fun l (hl : l.home = .monit) => by
    cases l with
    | monitor decl => exact ⟨decl, rfl⟩
    | device decl | connection decl => cases hl
  exact ⟨⟨devices, connections, monitors⟩, rfl⟩

theorem SyntaxTree.home_of_mem_lines {t : SyntaxTree} {l : Line} (h : l ∈ t.lines s) :
    l.home = s := by
  cases s with
  | devices | conns | monit =>
    obtain ⟨decl, -, rfl⟩ := List.mem_map.1 h
    rfl

theorem Layout.sound_empty : Layout.Sound names {} where
  interned _ h := by cases h
  nodup := List.nodup_nil
  fresh _ h := by cases h
  targets _ h := by cases h
  nodup_places := List.nodup_nil
  signals _ h := by cases h
  nodup_signals := List.nodup_nil

theorem SyntaxTree.add_layout (t : SyntaxTree) :
    Layout.add {} (.ofLines (Section.all.flatMap t.lines)) = t.layout := by
  simp [Layout.add, layout]

/-- A file that is read without issues is a well-formed definition. -/
theorem readFile_sound {ts : List Token} (hfinish : finish.symbol? = none)
    (hts : ∀ t ∈ ts, t.Numbered names)
    (h : (readFile limit ts finish (Layout.draft {} names passLimit)).issues = []) :
    ∃ t : SyntaxTree, t.WellFormed limit ∧ Spelled ts t.symbols := by
  simp only [readFile] at h
  have hbefore : (chunks finish ts).1 = [] := by
    have hpieces := (Draft.builds_foldl (fun d m => d.builds_report _) _ _).leads.issues_eq_nil h
    have hstart := (builds_foldl_readChunk _ limit _ _).leads.issues_eq_nil hpieces
    cases hfirst : (chunks finish ts).1 with
    | nil => rfl
    | cons t rest =>
      rw [hfirst] at hstart
      exact absurd hstart (Draft.report_issues_ne_nil _ _)
  rw [hbefore, if_pos rfl] at h
  dsimp only at h
  generalize hread : (chunks finish ts).2.foldl (Progress.readChunk [] limit)
    ⟨Section.all, Layout.draft {} names passLimit⟩ = p at h
  obtain ⟨due, d⟩ := p
  have hdue : due = [] := by simpa using eq_nil_of_foldl_report h
  subst hdue
  obtain ⟨bodies, hbodies, hspelled, hadmits⟩ :=
    foldl_readChunk_sound (proper_of_mem_chunks hfinish hts) Layout.sound_empty hread h
  obtain ⟨t, rfl⟩ := SyntaxTree.exists_map_lines_eq hbodies
  refine ⟨t, SyntaxTree.wellFormed_iff.2 ⟨fun s => ?_, hadmits⟩, ?_⟩
  · rw [List.forall₂_map_right_iff, List.forall₂_same] at hbodies
    exact (hbodies s (by cases s <;> decide)).length_le
  · rw [← chunks_flatMap_tokens finish ts, hbefore]
    exact hspelled

/-- A well-formed definition is read without issues, and its layout is what becomes of it. -/
theorem readFile_complete (passLimit : Nat) {ts : List Token} {t : SyntaxTree}
    (hfinish : finish.symbol? = none) (hts : ∀ t ∈ ts, t.Numbered names)
    (ht : t.WellFormed limit) (hspelled : Spelled ts t.symbols) :
    readFile limit ts finish (Layout.draft {} names passLimit) =
      t.layout.draft names passLimit := by
  obtain ⟨hlength, hadmits⟩ := SyntaxTree.wellFormed_iff.1 ht
  have hread := foldl_readChunk_complete passLimit hfinish hts Layout.sound_empty
    (fun s => ⟨fun _ => SyntaxTree.home_of_mem_lines, hlength s⟩) hspelled hadmits
  have hbefore : (chunks finish ts).1 = [] := by
    have hchunks := chunks_of_spelled hspelled (rfl : (chunks finish []).1 = [])
    rwa [List.append_nil] at hchunks
  rw [SyntaxTree.add_layout] at hread
  simp only [readFile, hbefore, if_true, hread]
  rfl

end Breadboard.Definition
