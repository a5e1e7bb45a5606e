import Breadboard.Proofs.Definition.Joining
import Breadboard.Proofs.Definition.UnendedLines
import Mathlib.Data.List.Basic

/-!
# A missing semicolon

What becomes of a definition that is right but for the semicolon at the end of one of its lines.

* `SyntaxTree.exists_site`: each semicolon of a definition ends one of its lines.
* `SyntaxTree.Site.readFile_eq`: what comes of a file depends on what comes of the rest of one
  section.
* `readOnto_unended`: the issue that is reported, and the board that is built.
-/
namespace Breadboard.Definition

variable {names : NameTable} {passLimit limit : Nat} {k : Layout}

/-! ## A line of a definition -/

/-- A line of a definition, with the sections and lines before and behind it. -/
structure SyntaxTree.Site (t : SyntaxTree) where
  passed : List Section
  home : Section
  due : List Section
  earlier : List Line
  line : Line
  later : List Line
  sections_eq : Section.all = passed ++ home :: due
  lines_eq : t.lines home = earlier ++ line :: later

namespace SyntaxTree.Site

variable {t : SyntaxTree} (w : t.Site)

/-- The symbols before the line. -/
def symbolsBefore : List Symbol :=
  (w.passed.flatMap fun s => s.symbols (t.lines s)) ++ w.home.symbols w.earlier

/-- The symbols of the sections behind that of the line. -/
def symbolsDue : List Symbol := w.due.flatMap fun s => s.symbols (t.lines s)

/-- The lines before the line, whatever their section. -/
def linesBefore : List Line := w.passed.flatMap t.lines ++ w.earlier

/-- The lines of the sections behind that of the line. -/
def linesDue : List Line := w.due.flatMap t.lines

theorem allLines_eq :
    Section.all.flatMap t.lines = w.linesBefore ++ (w.line :: w.later ++ w.linesDue) := by
  simp [w.sections_eq, linesBefore, linesDue, w.lines_eq]

/-- What the definition declares up to the line. -/
def layoutBefore : Layout := .ofLines w.linesBefore

theorem layout_eq :
    t.layout = (w.layoutBefore.add (.ofLines (w.line :: w.later))).add (.ofLines w.linesDue) := by
  rw [layout, w.allLines_eq]
  simp [Layout.ofLines, Layout.add, layoutBefore]

theorem isBody (ht : t.WellFormed limit) :
    w.home.IsBody (limit - w.earlier.length) (w.line :: w.later) where
  home l hl := home_of_mem_lines (t := t) (by rw [w.lines_eq]; exact List.mem_append_right _ hl)
  length_le := by
    have hle := ht.lines_le w.home
    rw [w.lines_eq, List.length_append] at hle
    omega

/-- The layout of the sections before that of the line. -/
def layoutPassed : Layout := .ofLines (w.passed.flatMap t.lines)

theorem layoutBefore_eq : w.layoutPassed.add (.ofLines w.earlier) = w.layoutBefore := by
  simp [layoutPassed, layoutBefore, linesBefore, Layout.add, Layout.ofLines]

theorem admits (ht : t.WellFormed limit) :
    Layout.Admits {} (w.passed.flatMap t.lines) ∧ w.layoutPassed.Admits w.earlier ∧
      w.layoutBefore.Admits (w.line :: w.later) ∧
        (w.layoutBefore.add (.ofLines (w.line :: w.later))).Admits w.linesDue := by
  have hall := (wellFormed_iff.1 ht).2
  have hempty : Layout.add {} (.ofLines (w.passed.flatMap t.lines)) = w.layoutPassed := by
    simp [Layout.add, layoutPassed]
  rwa [w.allLines_eq, linesBefore, List.append_assoc, Layout.admits_append_iff,
    Layout.admits_append_iff, Layout.admits_append_iff, hempty, w.layoutBefore_eq] at hall

/-- The section of the line is read without issues up to the line. -/
theorem readChunk_eq (passLimit : Nat) (ht : t.WellFormed limit) {opening stop : Token}
    {body xs : List Token} (hproper : Chunk.Proper names ⟨opening, body ++ xs, stop⟩)
    (hbody : Spelled body
      ([.heading w.home, .mark .closeSquare] ++ w.earlier.flatMap Line.symbols))
    (hk : w.layoutPassed.Sound names) :
    ∃ c : Cursor, c.Proper names ∧ c.ahead = xs ∧ c.stop = stop ∧ w.layoutBefore.Sound names ∧
      Progress.readChunk [] limit ⟨w.home :: w.due, w.layoutPassed.draft names passLimit⟩
          ⟨opening, body ++ xs, stop⟩ =
        ⟨w.due, readLines w.home limit (limit - w.earlier.length) c
          (w.layoutBefore.draft names passLimit)⟩ := by
  have hreads : (Chunk.cursor ⟨opening, body ++ xs, stop⟩).Reads
      ([.heading w.home, .mark .closeSquare] ++ w.earlier.flatMap Line.symbols)
      ⟨body.getLastD opening, xs, stop⟩ := ⟨rfl, body, rfl, rfl, hbody⟩
  obtain ⟨c, hheader, hearlier⟩ := hreads.split
  have hp := hproper.cursor.of_reads hheader
  have hlimit : limit - w.earlier.length + w.earlier.length = limit := by
    have hle := ht.lines_le w.home
    rw [w.lines_eq, List.length_append] at hle
    omega
  have hhome : ∀ l ∈ w.earlier, l.home = w.home := fun l hl =>
    home_of_mem_lines (t := t) (by rw [w.lines_eq]; exact List.mem_append_left _ hl)
  obtain ⟨hsound, hread⟩ := readLines_append passLimit limit (limit - w.earlier.length) hp hk
    hearlier hhome (w.admits ht).2.1
  rw [w.layoutBefore_eq] at hsound hread
  rw [hlimit] at hread
  refine ⟨_, hp.of_reads hearlier, rfl, rfl, hsound, ?_⟩
  rw [readChunk_of_header hheader, hread]

/-- A file is read up to a line without issues, and what comes of it depends on what comes of the
rest of the section. -/
theorem readFile_eq (passLimit : Nat) (ht : t.WellFormed limit) {us xs ws : List Token}
    {finish : Token} {is : List Issue} (hfinish : finish.symbol? = none)
    (hnumbered : ∀ t ∈ us ++ (xs ++ ws), t.Numbered names) (hus : Spelled us w.symbolsBefore)
    (hxs : ∀ t ∈ xs, t.isMark .openSquare = false) (hws : Spelled ws w.symbolsDue)
    (hread : ∀ c : Cursor, c.Proper names → c.ahead = xs → c.stop = ws.headD finish →
      w.layoutBefore.Sound names → k.Sound names ∧ k.Admits w.linesDue ∧
        readLines w.home limit (limit - w.earlier.length) c
          (w.layoutBefore.draft names passLimit) = (k.draft names passLimit).since is) :
    readFile limit (us ++ (xs ++ ws)) finish (Layout.draft {} names passLimit) =
      ((k.add (.ofLines w.linesDue)).draft names passLimit).since is := by
  have hlines : ∀ s : Section, s.IsBody limit (t.lines s) := fun s =>
    ⟨fun _ => home_of_mem_lines, ht.lines_le s⟩
  -- the pieces of the file
  obtain ⟨us, vs, rfl, hpassed, hhome⟩ := spelled_append_iff.1 hus
  obtain ⟨opening, body, rfl, hopening, hbody⟩ := spelled_cons_iff.1 hhome
  have hopen : ∀ t ∈ body ++ xs, t.isMark .openSquare = false := by
    refine List.forall_mem_append.2 ⟨isMark_openSquare_of_spelled hbody ?_, hxs⟩
    simp [Line.openSquare_notMem_symbols]
  have hdue : (chunks finish ws).1 = [] := by
    have hchunks := chunks_of_spelled hws (rfl : (chunks finish []).1 = [])
    rwa [List.append_nil] at hchunks
  have hpieces := chunks_piece (isMark_iff.2 hopening) hopen hdue
  have htokens : us ++ opening :: body ++ (xs ++ ws) =
      us ++ (opening :: (body ++ xs) ++ ws) := by simp
  rw [htokens] at hnumbered ⊢
  have hfirst : (chunks finish (us ++ (opening :: (body ++ xs) ++ ws))).1 = [] :=
    chunks_of_spelled hpassed (by rw [hpieces])
  -- the sections before that of the line, its own one, and those behind it
  obtain ⟨hsound, hfold⟩ := foldl_readChunk_append passLimit (w.home :: w.due)
    (opening :: (body ++ xs) ++ ws) hfinish hnumbered Layout.sound_empty hlines hpassed
    (w.admits ht).1 (by rw [hpieces])
  have hempty : Layout.add {} (.ofLines (w.passed.flatMap t.lines)) = w.layoutPassed := by
    simp [Layout.add, layoutPassed]
  rw [hempty] at hsound hfold
  have hproper : Chunk.Proper names ⟨opening, body ++ xs, ws.headD finish⟩ :=
    proper_of_mem_chunks hfinish (fun t ht => hnumbered t (List.mem_append_right us ht)) _
      (by rw [hpieces]; exact List.mem_cons_self)
  obtain ⟨c, hp, hahead, hstop, hbefore, hchunk⟩ := w.readChunk_eq passLimit ht hproper hbody hsound
  obtain ⟨hk, hadmits, hrest⟩ := hread c hp hahead hstop hbefore
  have hbehind := foldl_readChunk_complete passLimit hfinish
    (fun t ht => hnumbered t (by simp [ht])) hk hlines hws hadmits
  have hsections : (chunks finish (us ++ (opening :: (body ++ xs) ++ ws))).2.foldl
      (Progress.readChunk [] limit) ⟨Section.all, Layout.draft {} names passLimit⟩ =
        Progress.since is ⟨[], (k.add (.ofLines w.linesDue)).draft names passLimit⟩ := by
    rw [w.sections_eq, hfold, hpieces, List.foldl_cons, hchunk, hrest]
    refine (foldl_readChunk_since is [] limit _ ⟨w.due, k.draft names passLimit⟩).trans ?_
    rw [hbehind]
    rfl
  simp only [readFile, hfirst, if_true, hsections]
  rfl

end SyntaxTree.Site

theorem exists_piece_of_flatMap {α β : Type} {g : α → List β} {as : List α} {xs ys : List β} {b : β}
    (h : as.flatMap g = xs ++ b :: ys) :
    ∃ earlier a later us vs, as = earlier ++ a :: later ∧ g a = us ++ b :: vs ∧
      xs = earlier.flatMap g ++ us ∧ ys = vs ++ later.flatMap g := by
  induction as generalizing xs with
  | nil => simp at h
  | cons a as ih =>
    rw [List.flatMap_cons, List.append_eq_append_iff] at h
    have hrest (zs : List β) (hzs : as.flatMap g = zs ++ b :: ys) (hxs : xs = g a ++ zs) :
        ∃ earlier a' later us vs, a :: as = earlier ++ a' :: later ∧ g a' = us ++ b :: vs ∧
          xs = earlier.flatMap g ++ us ∧ ys = vs ++ later.flatMap g := by
      obtain ⟨earlier, a', later, us, vs, rfl, ha', rfl, hys⟩ := ih hzs
      exact ⟨a :: earlier, a', later, us, vs, rfl, ha', by simp [hxs], hys⟩
    rcases h with ⟨zs, hxs, hzs⟩ | ⟨_ | ⟨b', vs⟩, ha, hvs⟩
    · exact hrest zs hzs hxs
    · exact hrest [] hvs.symm (by simpa using ha.symm)
    · obtain ⟨rfl, rfl⟩ := List.cons.inj hvs
      exact ⟨[], a, as, xs, vs, rfl, ha, rfl, rfl⟩

/-- Each semicolon of a definition ends one of its lines. -/
theorem SyntaxTree.exists_site {t : SyntaxTree} {xs ys : List Symbol}
    (h : t.symbols = xs ++ .mark .semicolon :: ys) :
    ∃ w : t.Site, xs = w.symbolsBefore ++ w.line.content ∧
      ys = w.later.flatMap Line.symbols ++ w.symbolsDue := by
  obtain ⟨passed, s, due, us, vs, hsections, hs, rfl, rfl⟩ := exists_piece_of_flatMap h
  -- the header has no semicolon
  obtain ⟨us, rfl, hbody⟩ : ∃ us', us = [.mark .openSquare, .heading s, .mark .closeSquare] ++ us' ∧
      (t.lines s).flatMap Line.symbols = us' ++ .mark .semicolon :: vs := by
    rw [Section.symbols] at hs
    rcases us with _ | ⟨a, _ | ⟨b, _ | ⟨c, us⟩⟩⟩
    all_goals simp at hs
    exact ⟨us, by simp [hs.1, hs.2.1, hs.2.2.1], hs.2.2.2⟩
  obtain ⟨earlier, l, later, us, vs, hlines, hl, rfl, rfl⟩ := exists_piece_of_flatMap hbody
  have hcontent : Symbol.mark .semicolon ∉ l.content := fun hmem =>
    (Line.inner_of_mem_content hmem).1 rfl
  rw [l.symbols_eq] at hl
  obtain ⟨rfl, -, rfl⟩ := (List.append_cons_inj_of_notMem hcontent (by simp)).1 hl
  refine ⟨⟨passed, s, due, earlier, l, later, hsections, hlines⟩, ?_, rfl⟩
  simp [Site.symbolsBefore, Section.symbols]

/-! ## Without one semicolon -/

namespace SyntaxTree.Site

variable {t : SyntaxTree} (w : t.Site)

/-- What is left of the definition where the line runs on into the next one. -/
def curtailedLayout : Layout :=
  (w.layoutBefore.add w.line.curtailed).add (.ofLines (w.later.tail ++ w.linesDue))

/-- Where the tokens of the line are ahead, there is a cursor at its end. -/
theorem exists_end {c : Cursor} {ts vs ws : List Token} {last finish : Token}
    (hts : Spelled ts w.line.content) (hlast : ts.getLast? = some last)
    (hahead : c.ahead = ts ++ vs) (hstop : c.stop = ws.headD finish) :
    ∃ e : Cursor, c.Reads w.line.content e ∧ e.ahead = vs ∧ e.previous = last ∧
      e.current = (vs ++ ws).headD finish := by
  refine ⟨⟨ts.getLastD c.previous, vs, c.stop⟩, ⟨rfl, ts, hahead, rfl, hts⟩, rfl, ?_, ?_⟩
  · rw [List.getLastD_eq_getLast?, hlast]
    rfl
  · rw [Cursor.current, hstop]
    cases vs <;> rfl

/-- A file in which the line has no semicolon. -/
theorem readFile_unended (passLimit : Nat) (ht : t.WellFormed limit) {us vs : List Token}
    {last : Token} (finish : Token) (hfinish : finish.symbol? = none)
    (hnumbered : ∀ t ∈ us ++ vs, t.Numbered names)
    (hus : Spelled us (w.symbolsBefore ++ w.line.content))
    (hvs : Spelled vs (w.later.flatMap Line.symbols ++ w.symbolsDue))
    (hlines : ∀ t ∈ us, ∀ u ∈ vs ++ [finish], t.position.line < u.position.line)
    (hlast : us.getLast? = some last) :
    (¬ w.line.RunsOn w.later →
      readFile limit (us ++ vs) finish (Layout.draft {} names passLimit) =
        (t.layout.draft names passLimit).since [(Fault.missingSemicolon last).on last]) ∧
    (w.line.RunsOn w.later → ∃ next rest, vs = next :: rest ∧
      readFile limit (us ++ vs) finish (Layout.draft {} names passLimit) =
        (w.curtailedLayout.draft names passLimit).since
          [(Fault.missingDot last.text next.text).on next]) := by
  obtain ⟨us, ts, rfl, husBefore, hts⟩ := spelled_append_iff.1 hus
  obtain ⟨vs, ws, rfl, hvs, hws⟩ := spelled_append_iff.1 hvs
  obtain ⟨left, hleft⟩ : ∃ left, limit - w.earlier.length = left + 1 := by
    have hle := (w.isBody ht).length_le
    rw [List.length_cons] at hle
    exact ⟨limit - w.earlier.length - 1, by omega⟩
  have hbody := w.isBody ht
  rw [hleft] at hbody
  obtain ⟨-, -, hadmits, hadmitsDue⟩ := w.admits ht
  have hopen : ∀ t ∈ ts ++ vs, t.isMark .openSquare = false := by
    refine List.forall_mem_append.2 ⟨isMark_openSquare_of_spelled hts fun hmem => ?_,
      isMark_openSquare_of_spelled hvs ?_⟩
    · exact (Line.inner_of_mem_content hmem).2 rfl
    · simp [Line.openSquare_notMem_symbols]
  have htokens : us ++ ts ++ (vs ++ ws) = us ++ ((ts ++ vs) ++ ws) := by simp
  rw [htokens] at hnumbered ⊢
  have hts' : ts ≠ [] := fun hnil => w.line.content_ne_nil (by simpa [hnil, Spelled] using hts)
  have hhead : (vs ++ ws).headD finish ∈ vs ++ ws ++ [finish] := by
    cases vs ++ ws <;> simp
  have hlast' : ts.getLast? = some last := by
    rwa [List.getLast?_append_of_ne_nil _ hts'] at hlast
  constructor
  · intro hrun
    rw [w.layout_eq]
    refine w.readFile_eq passLimit ht hfinish hnumbered husBefore hopen hws
      fun c hp hahead hstop hsound => ?_
    obtain ⟨e, hr, he, rfl, hcurrent⟩ := w.exists_end hts hlast' hahead hstop
    obtain ⟨hk, hread⟩ := readLines_unended passLimit limit hp hsound hr hbody (by rwa [he]) hadmits
      (hlines _ (List.mem_of_getLast? hlast) _ (hcurrent ▸ hhead)) hrun
    exact ⟨hk, hadmitsDue, by rw [hleft, hread]⟩
  · intro hrun
    have hvs' : vs ++ ws ≠ [] := by
      intro hnil
      rw [(List.append_eq_nil_iff.1 hnil).1] at hvs
      obtain ⟨next, later, hlater⟩ := List.exists_cons_of_ne_nil hrun.1
      obtain ⟨word, rest, hnext⟩ := next.symbols_head
      simp [hlater, hnext, Spelled] at hvs
    obtain ⟨next, rest, hnext⟩ := List.exists_cons_of_ne_nil hvs'
    refine ⟨next, rest, hnext, ?_⟩
    rw [curtailedLayout, Layout.add_ofLines_append]
    refine w.readFile_eq passLimit ht hfinish hnumbered husBefore hopen hws
      fun c hp hahead hstop hsound => ?_
    obtain ⟨e, hr, he, rfl, hcurrent⟩ := w.exists_end hts hlast' hahead hstop
    rw [hnext, List.headD_cons] at hcurrent
    obtain ⟨hk, hwithin, hread⟩ := readLines_runOn passLimit limit hp hsound hr hbody (by rwa [he])
      hadmits hrun
    exact ⟨hk, hwithin.admits hadmitsDue, by rw [hleft, hread, hcurrent]⟩

/-- The tokens up to the end of the line end with one that opens no header. -/
theorem exists_last {us : List Token} (h : Spelled us (w.symbolsBefore ++ w.line.content)) :
    ∃ last, us.getLast? = some last ∧ last.isMark .openSquare = false := by
  obtain ⟨us, ts, rfl, -, hts⟩ := spelled_append_iff.1 h
  have hts' : ts ≠ [] := fun hnil => w.line.content_ne_nil (by simpa [hnil, Spelled] using hts)
  refine ⟨ts.getLast hts', ?_, ?_⟩
  · rw [List.getLast?_append_of_ne_nil _ hts', List.getLast?_eq_some_getLast hts']
  · exact isMark_openSquare_of_spelled hts (fun hmem => (Line.inner_of_mem_content hmem).2 rfl) _
      (List.getLast_mem hts')

end SyntaxTree.Site

/-! ## Whole texts -/

theorem exists_symbols_of_spelled {us vs : List Token} {t : Token} {a : Symbol} {ss : List Symbol}
    (h : Spelled (us ++ [t] ++ vs) ss) (ht : t.symbol? = some a) :
    ∃ xs ys, ss = xs ++ a :: ys ∧ Spelled us xs ∧ Spelled vs ys := by
  simp only [Spelled, List.append_assoc, List.map_append, List.map_cons,
    List.singleton_append, ht] at h
  obtain ⟨xs, rest, rfl, hxs, hrest⟩ := List.map_eq_append_iff.1 h.symm
  obtain ⟨b, ys, rfl, hb, hys⟩ := List.map_eq_cons_iff.1 hrest
  obtain rfl := Option.some.inj hb
  exact ⟨xs, ys, rfl, hxs.symm, hys.symm⟩

/-- What a text becomes, given what its tokens become. -/
theorem readOnto_of_readFile {text : List Char} {is : List Issue}
    (hstrays : (scan .empty text).strays = []) (his : is ≠ [])
    (hread : readFile limit (scan .empty text).tokens (scan .empty text).finish
      (Layout.draft {} (scan .empty text).names passLimit) =
        (k.draft (scan .empty text).names passLimit).since is) :
    readOnto (.empty passLimit) limit (String.ofList text) =
      { board := ⟨(scan .empty text).names, k.circuit (scan .empty text).names passLimit,
          k.probes (scan .empty text).names⟩
        diagnostics := is.map (·.diagnostic (Text.sourceLines text).toArray)
        notices := [] } := by
  have hread' : readFile limit (scan .empty text).tokens (scan .empty text).finish
      { circuit := (Board.empty passLimit).circuit, probes := (Board.empty passLimit).probes } =
        (k.draft (scan .empty text).names passLimit).since is := hread
  have hissues : ((k.draft (scan .empty text).names passLimit).since is).issues = is :=
    List.append_nil is
  have hscan : (scan .empty text).issues = [] := List.map_eq_nil_iff.2 hstrays
  simp only [readOnto, String.toList_ofList, show (Board.empty passLimit).names = .empty from rfl,
    hread', hissues, if_neg his, hscan, List.nil_append]
  rfl

/-- **A missing semicolon.** Where an accepted text has a semicolon at the end of a source line, that
semicolon ends one of the lines of the definition. Without it, there is one diagnostic. Unless the line
runs on, this is a syntax error at the last token of the line, and the board is the same. A line that
runs on ends in the bare name of a device, as the line of a target and its source or that of a monitor
may do, and has another line behind it: then the dot of a pin is said to be missing at the first token
of the next line, and the last wire or signal of the line is lost together with the whole next line. -/
theorem readOnto_unended (passLimit limit : Nat) {before : List Char} (behind : List Char)
    (hcomment : ∀ comment, (lexemes before).getLast? ≠ some (.comment comment))
    (haccepted : (readOnto (.empty passLimit) limit
      (String.ofList (before ++ ';' :: '\n' :: behind))).accepted = true) :
    let whole := readOnto (.empty passLimit) limit
      (String.ofList (before ++ ';' :: '\n' :: behind))
    let read := readOnto (.empty passLimit) limit (String.ofList (before ++ '\n' :: behind))
    let lines := (Text.sourceLines (before ++ '\n' :: behind)).toArray
    ∃ (t : SyntaxTree) (w : t.Site) (last : Token),
      t.Derives (String.ofList (before ++ ';' :: '\n' :: behind)) ∧
      symbols (String.ofList before) = w.symbolsBefore ++ w.line.content ∧
      (scan .empty before).tokens.getLast? = some last ∧
      (¬ w.line.RunsOn w.later →
        read =
          { board := whole.board
            diagnostics := [((Fault.missingSemicolon last).on last).diagnostic lines]
            notices := [] }) ∧
      (w.line.RunsOn w.later → ∃ next rest,
        (scan .empty (before ++ '\n' :: behind)).tokens =
          (scan .empty before).tokens ++ next :: rest ∧
        read =
          { board := ⟨t.names, w.curtailedLayout.circuit t.names passLimit,
              w.curtailedLayout.probes t.names⟩
            diagnostics := [((Fault.missingDot last.text next.text).on next).diagnostic lines]
            notices := [] }) := by
  intro whole read lines
  obtain ⟨t, hderives, ht⟩ := exists_tree_of_accepted haccepted
  have hwhole : whole = t.reading passLimit := readOnto_of_derives passLimit hderives ht
  have hspelled := spelled_tokens_iff.2 hderives.symbols
  have hstrays := hderives.strays
  have hnames := names_scan hderives
  rw [String.toList_ofList, scan_semicolon .empty behind hcomment] at hspelled hstrays hnames
  -- the tokens before the semicolon end with one of the line
  obtain ⟨xs, ys, hsymbols, hus, hvs⟩ := exists_symbols_of_spelled hspelled rfl
  obtain ⟨w, rfl, rfl⟩ := SyntaxTree.exists_site hsymbols
  have hbefore : symbols (String.ofList before) = w.symbolsBefore ++ w.line.content :=
    spelled_tokens_iff.1 (by rwa [String.toList_ofList])
  obtain ⟨last, hlast, hopen⟩ := w.exists_last hus
  have hopened : opened false (scan .empty before).tokens = false := by
    simp [opened, hlast, hopen]
  -- what is scanned without the semicolon
  have hscan := scan_newline .empty behind hopened
  have hnumbered : ∀ t ∈ (scan .empty (before ++ '\n' :: behind)).tokens,
      t.Numbered (scan .empty (before ++ '\n' :: behind)).names :=
    numbered_of_mem_tokensFrom .empty false (placed {} (lexemes (before ++ '\n' :: behind)))
  have htokens : (scan .empty (before ++ '\n' :: behind)).tokens =
      (scan .empty before).tokens ++ (tokensBehind .empty before behind).1 := by
    rw [hscan, scanWith, List.append_nil]
  have hstrays' : (scan .empty (before ++ '\n' :: behind)).strays = [] := hscan ▸ hstrays
  have hnames' : (scan .empty (before ++ '\n' :: behind)).names = t.names := hscan ▸ hnames
  rw [htokens] at hnumbered
  obtain ⟨hended, hrunOn⟩ := w.readFile_unended passLimit ht
    (scan .empty (before ++ '\n' :: behind)).finish rfl hnumbered hus hvs
    (fun t ht u hu => line_lt_of_mem_tokensBehind .empty behind ht (hscan ▸ hu)) hlast
  rw [← htokens] at hended hrunOn
  refine ⟨t, w, last, hderives, hbefore, hlast, fun hrun => ?_, fun hrun => ?_⟩
  · have hread := readOnto_of_readFile hstrays' (by simp) (hended hrun)
    rw [hwhole]
    simp only [read, hread, hnames']
    rfl
  · obtain ⟨next, rest, hnext, hfile⟩ := hrunOn hrun
    have hread := readOnto_of_readFile hstrays' (by simp) hfile
    refine ⟨next, rest, by rw [htokens, hnext], ?_⟩
    simp only [read, hread, hnames']
    rfl

/-- A switch and two gates in a row, up to the first connection. -/
def rowBefore : List Char :=
  "[devices]\nA = SWITCH;\nG = NAND(1);\nH = NAND(1);\n[conns]\nG = A".toList

def rowBehind : List Char := "H = G;\n[monit]\nG;\nH;\n".toList

theorem row_unended :
    let whole := readOnto (.empty 20) 10 (String.ofList (rowBefore ++ ';' :: '\n' :: rowBehind))
    let read := readOnto (.empty 20) 10 (String.ofList (rowBefore ++ '\n' :: rowBehind))
    let lines := (Text.sourceLines (rowBefore ++ '\n' :: rowBehind)).toArray
    (∀ comment, (lexemes rowBefore).getLast? ≠ some (.comment comment)) ∧ whole.accepted = true ∧
      ∃ (t : SyntaxTree) (w : t.Site) (last : Token),
        symbols (String.ofList rowBefore) = w.symbolsBefore ++ w.line.content ∧
        (scan .empty rowBefore).tokens.getLast? = some last ∧
        (¬ w.line.RunsOn w.later →
          read = ⟨whole.board, [((Fault.missingSemicolon last).on last).diagnostic lines], []⟩) ∧
        (w.line.RunsOn w.later → ∃ next : Token,
          read.diagnostics = [((Fault.missingDot last.text next.text).on next).diagnostic lines]) := by
  intro whole read lines
  have hword : (lexemes rowBefore).getLast? = some (.word ['A']) := by decide +kernel
  have hcomment : ∀ comment, (lexemes rowBefore).getLast? ≠ some (.comment comment) := by
    simp [hword]
  have haccepted : whole.accepted = true := by decide +kernel
  obtain ⟨t, w, last, -, hsymbols, hlast, hended, hrunOn⟩ :=
    readOnto_unended 20 10 rowBehind hcomment haccepted
  refine ⟨hcomment, haccepted, t, w, last, hsymbols, hlast, hended, fun hrun => ?_⟩
  obtain ⟨next, rest, -, hread⟩ := hrunOn hrun
  exact ⟨next, congrArg Reading.diagnostics hread⟩

/-- A missing semicolon may cost more than a diagnostic at the end of the line: here, the first
connection ends in a bare name, both connections are lost, and what is reported is another thing. -/
theorem row_runs_on :
    let whole := readOnto (.empty 20) 10 (String.ofList (rowBefore ++ ';' :: '\n' :: rowBehind))
    let read := readOnto (.empty 20) 10 (String.ofList (rowBefore ++ '\n' :: rowBehind))
    whole.accepted = true ∧ whole.board.circuit.undriven = [] ∧
      read.diagnostics.map (fun d => (d.kind, d.position)) = [(.missingDot, ⟨6, 0⟩)] ∧
      read.board.circuit.undriven.length = 2 := by
  decide +kernel

end Breadboard.Definition
