import Breadboard.Proofs.Definition.EarlierIssues

/-!
# Lines without their semicolon

What becomes of a section of which one line has lost its semicolon. Most often this is reported at the
end of the line, and that is all. But a line may run on: after a bare name, the name at which the next
line begins is taken for a pin whose dot is missing, and what is skipped then goes up to the semicolon
of the next line.

* `readLines_unended`: the lines of a section, of which the first one does not run on.
* `readLines_runOn`: the lines of a section, of which the first one does.
-/
namespace Breadboard.Definition

variable {names : NameTable} {passLimit limit : Nat} {c c' e : Cursor} {k k' : Layout}
  {s : Section} {l : Line}

/-! ## Smaller layouts -/

/-- The layout has the parts of another one, and some of its wires and signals. -/
structure Layout.Within (k k' : Layout) : Prop where
  parts : k.parts = k'.parts
  wires : k.wires.Sublist k'.wires
  signals : k.signals.Sublist k'.signals

namespace Layout.Within

theorem add (h : k.Within k') (more : Layout) : (k.add more).Within (k'.add more) where
  parts := congrArg (· ++ more.parts) h.parts
  wires := h.wires.append (List.Sublist.refl _)
  signals := h.signals.append (List.Sublist.refl _)

theorem valid (h : k.Within k') (hl : l.Valid k') : l.Valid k := by
  cases l with
  | device decl => exact ⟨hl.suits, h.parts ▸ hl.nodup⟩
  | connection decl =>
    refine ⟨h.parts ▸ hl.fits, h.parts ▸ hl.sources, ?_⟩
    exact hl.nodup.sublist ((h.wires.append (List.Sublist.refl _)).map _)
  | monitor decl =>
    exact ⟨h.parts ▸ hl.signals, hl.nodup.sublist (h.signals.append (List.Sublist.refl _))⟩

/-- Lines that may come after a layout may come after a smaller one. -/
theorem admits {ls : List Line} (h : k.Within k') (hls : k'.Admits ls) : k.Admits ls := by
  induction ls generalizing k k' with
  | nil => trivial
  | cons l ls ih => exact ⟨h.valid hls.1, ih (h.add l.layout) hls.2⟩

end Layout.Within

/-- What a line declares, without its last wire or signal. -/
def Line.curtailed (l : Line) : Layout :=
  ⟨l.layout.parts, l.layout.wires.dropLast, l.layout.signals.dropLast⟩

theorem Line.curtailed_within (k : Layout) (l : Line) :
    (k.add l.curtailed).Within (k.add l.layout) where
  parts := rfl
  wires := (List.Sublist.refl _).append (List.dropLast_sublist _)
  signals := (List.Sublist.refl _).append (List.dropLast_sublist _)

/-! ## A line that runs on -/

/-- A line that ends in a bare name, with another name behind it, loses its last wire or signal. -/
theorem readLine_runOn (passLimit : Nat) {last : Signal} {id : NameId} (hp : c.Proper names)
    (hk : k.Sound names) (hr : c.Reads l.content e) (hlast : l.last? = some last)
    (hpin : last.pin = none) (hnext : e.current.kind = .name id) (hvalid : l.Valid k) :
    ∃ c₁ : Cursor, c₁.Reads last.symbols e ∧ (k.add l.curtailed).Sound names ∧
      readLine l.home c (k.draft names passLimit) =
        ((k.add l.curtailed).draft names passLimit).abandonLine c₁
          ((Fault.missingDot last.device e.current.text).on e.current) := by
  cases l with
  | device decl => cases hlast
  | connection decl =>
    have hcurtailed : k.add (Line.connection decl).curtailed = k.addWires decl.wires.dropLast := by
      simp [Line.curtailed, Line.layout, Layout.add, Layout.addWires]
    rw [hcurtailed]
    exact readConnectionLine_runOn passLimit hp hk hr hlast hpin hnext hvalid
  | monitor decl =>
    have hcurtailed : k.add (Line.monitor decl).curtailed =
        k.addSignals decl.signals.dropLast := by
      simp [Line.curtailed, Line.layout, Layout.add, Layout.addSignals]
    rw [hcurtailed]
    exact readMonitorLine_runOn passLimit hp hk hr hlast hpin hnext hvalid

/-! ## The lines of a section -/

/-- Without its semicolon, the line runs on into the next one: it ends in a bare name, and the name at
which the next line begins is taken for its pin. -/
def Line.RunsOn (l : Line) (later : List Line) : Prop :=
  later ≠ [] ∧ ∃ s ∈ l.last?, s.pin = none

theorem separated_signals_head {signals : List Signal} (h : signals ≠ []) :
    ∃ word rest, separated Signal.symbols signals = .name word :: rest := by
  obtain ⟨s, rest, rfl⟩ := List.exists_cons_of_ne_nil h
  cases rest <;> exact ⟨_, _, rfl⟩

theorem Line.symbols_head (l : Line) : ∃ word rest, l.symbols = .name word :: rest := by
  cases l with
  | device decl =>
    obtain ⟨name, names, hnames⟩ := List.exists_cons_of_ne_nil decl.names_ne_nil
    simp only [symbols, DeviceDecl.symbols, hnames]
    cases names <;> exact ⟨_, _, rfl⟩
  | connection decl => exact ⟨_, _, rfl⟩
  | monitor decl =>
    obtain ⟨word, rest, hsignals⟩ := separated_signals_head decl.signals_ne_nil
    simp only [symbols, MonitorDecl.symbols, hsignals]
    exact ⟨_, _, rfl⟩

theorem Line.content_ne_nil (l : Line) : l.content ≠ [] := by
  intro hnil
  obtain ⟨word, rest, hsymbols⟩ := l.symbols_head
  simp [symbols_eq, hnil] at hsymbols

/-- Where lines come next, there is the name at which the first of them begins, or the end of the
section. -/
theorem kind_of_lines {later : List Line} (hp : e.Proper names)
    (h : Spelled e.ahead (later.flatMap Line.symbols)) :
    (∀ m, e.current.kind = .mark m → m = .openSquare) ∧
      (later ≠ [] ↔ ∃ id, e.current.kind = .name id) := by
  cases later with
  | nil =>
    have hstop : e.current = e.stop := by
      rw [Cursor.current, spelled_nil_iff.1 h, List.headD_nil]
    rw [hstop]
    refine ⟨fun m hm => ?_, fun hne => absurd rfl hne, ?_⟩
    · exact Symbol.mark.inj (hp.stop _ (Token.symbol?_eq_mark_iff.2 hm))
    · rintro ⟨id, hid⟩
      cases hp.stop _ (Token.symbol?_eq_name_iff.2 ⟨⟨id, hid⟩, rfl⟩)
  | cons l later =>
    obtain ⟨word, rest, hl⟩ := l.symbols_head
    rw [List.flatMap_cons, hl] at h
    obtain ⟨t, ts, hahead, ht, -⟩ := spelled_cons_iff.1 h
    obtain ⟨⟨id, hkind⟩, -⟩ := Token.symbol?_eq_name_iff.1 ht
    rw [Cursor.current_cons hahead, hkind]
    exact ⟨fun m hm => (by cases hm), fun _ => ⟨id, rfl⟩, fun _ => List.cons_ne_nil l later⟩

/-- A line that does not run on ends where the next one begins. -/
theorem Line.endsAt_of_not_runsOn {later : List Line} (hp : e.Proper names)
    (h : Spelled e.ahead (later.flatMap Line.symbols)) (hrun : ¬ l.RunsOn later) :
    l.EndsAt e := by
  obtain ⟨hmark, hname⟩ := kind_of_lines hp h
  refine ⟨?_, ?_, fun s hs hpin => ⟨fun hdot => ?_, fun id hid => ?_⟩⟩
  · rw [← Bool.not_eq_true, Cursor.isAt_iff, Token.symbol?_eq_mark_iff]
    exact fun hcomma => by cases hmark _ hcomma
  · rw [← Bool.not_eq_true, Cursor.isAt_iff, Token.symbol?_eq_mark_iff]
    exact fun hbracket => by cases hmark _ hbracket
  · cases hmark _ hdot
  · exact hrun ⟨hname.2 ⟨id, hid⟩, s, hs, hpin⟩

section

variable {left : Nat} {later : List Line} (passLimit limit : Nat)

/-- A line that has lost its semicolon but does not run on is reported, and that is all. -/
theorem readLines_unended (hp : c.Proper names) (hk : k.Sound names) (hr : c.Reads l.content e)
    (hbody : s.IsBody (left + 1) (l :: later))
    (hlater : Spelled e.ahead (later.flatMap Line.symbols)) (hadmits : k.Admits (l :: later))
    (hline : e.previous.position.line < e.current.position.line) (hrun : ¬ l.RunsOn later) :
    (k.add (.ofLines (l :: later))).Sound names ∧
      readLines s limit (left + 1) c (k.draft names passLimit) =
        ((k.add (.ofLines (l :: later))).draft names passLimit).since
          [(Fault.missingSemicolon e.previous).on e.previous] := by
  obtain ⟨rfl, hbody⟩ := Section.isBody_cons_iff.1 hbody
  obtain ⟨hvalid, hadmits⟩ := hadmits
  have hp' := hp.of_reads hr
  have hsemicolon : e.isAt .semicolon = false := by
    rw [← Bool.not_eq_true, Cursor.isAt_iff, Token.symbol?_eq_mark_iff]
    exact fun h => by cases (kind_of_lines hp' hlater).1 _ h
  have hmore : c.ahead ≠ [] := hr.ahead_ne_nil l.content_ne_nil
  have hread : readLine l.home c (k.draft names passLimit) =
      (e, ((k.add l.layout).draft names passLimit).since
        [(Fault.missingSemicolon e.previous).on e.previous]) := by
    rw [readLine_content passLimit hp hk hr (Line.endsAt_of_not_runsOn hp' hlater hrun) hvalid,
      Draft.endLine, if_neg (by simp [hsemicolon]), if_pos hline, Draft.report_eq_since _ _ rfl]
  obtain ⟨hsound, hrest⟩ := readLines_complete passLimit limit hp' (hvalid.sound hp hr hk) hbody
    hlater hadmits
  rw [Layout.add_ofLines_cons]
  refine ⟨hsound, ?_⟩
  rw [readLines, if_neg hmore, hread]
  dsimp only
  rw [readLines_since, hrest]

/-- What is left of a line, and of the next one of the section if that is skipped, is within what the
two declare. -/
theorem Line.curtailed_within_add {next : Line} {last : Signal} (k : Layout)
    (hlast : l.last? = some last) (hsame : next.home = l.home) :
    (k.add l.curtailed).Within ((k.add l.layout).add next.layout) := by
  have hparts : next.layout.parts = [] := by
    cases next with
    | device =>
      cases l with
      | device => cases hlast
      | connection | monitor => cases hsame
    | connection | monitor => rfl
  have hcurtailed := l.curtailed_within k
  exact ⟨by rw [hcurtailed.parts]; simp [Layout.add, hparts],
    hcurtailed.wires.trans (List.sublist_append_left _ _),
    hcurtailed.signals.trans (List.sublist_append_left _ _)⟩

/-- From a signal on, the rest of a line without its semicolon is skipped together with the next
line. -/
theorem Line.skipLine_of_reads {c₁ e' : Cursor} {last : Signal} {next : Line}
    (hsignal : c₁.Reads last.symbols e) (hnext : e.Reads next.symbols e') : c₁.skipLine = e' := by
  rw [Line.symbols_eq] at hnext
  have hline := hsignal.trans hnext
  rw [← List.append_assoc] at hline
  refine Cursor.skipLine_of_reads hline fun hmem => ?_
  rcases List.mem_append.1 hmem with hmem | hmem
  · exact (Signal.inner_of_mem_symbols hmem).1 rfl
  · exact (Line.inner_of_mem_content hmem).1 rfl

/-- A line that has lost its semicolon and runs on loses its last wire or signal, and the line behind
it is skipped. -/
theorem readLines_runOn (hp : c.Proper names) (hk : k.Sound names) (hr : c.Reads l.content e)
    (hbody : s.IsBody (left + 1) (l :: later))
    (hlater : Spelled e.ahead (later.flatMap Line.symbols)) (hadmits : k.Admits (l :: later))
    (hrun : l.RunsOn later) :
    ((k.add l.curtailed).add (.ofLines later.tail)).Sound names ∧
      ((k.add l.curtailed).add (.ofLines later.tail)).Within (k.add (.ofLines (l :: later))) ∧
      readLines s limit (left + 1) c (k.draft names passLimit) =
        (((k.add l.curtailed).add (.ofLines later.tail)).draft names passLimit).since
          [(Fault.missingDot e.previous.text e.current.text).on e.current] := by
  obtain ⟨hne, last, hlast, hpin⟩ := hrun
  obtain ⟨rfl, hbody⟩ := Section.isBody_cons_iff.1 hbody
  obtain ⟨hvalid, hadmits⟩ := hadmits
  have hp' := hp.of_reads hr
  obtain ⟨id, hnext⟩ := (kind_of_lines hp' hlater).2.1 hne
  obtain ⟨c₁, hsignal, hk₁, hread⟩ := readLine_runOn passLimit hp hk hr hlast hpin hnext hvalid
  obtain ⟨next, later, rfl⟩ := List.exists_cons_of_ne_nil hne
  obtain ⟨hvalid', hadmits⟩ := hadmits
  have hsame : next.home = l.home := hbody.home next List.mem_cons_self
  have hwithin := Line.curtailed_within_add k hlast hsame
  rw [List.flatMap_cons] at hlater
  obtain ⟨e', hnextReads, hlater⟩ := Cursor.exists_reads_of_spelled hlater
  have hskip := Line.skipLine_of_reads hsignal hnextReads
  -- the token before the next line is the bare name
  have htext : last.device = e.previous.text := by
    rw [Signal.symbols, hpin] at hsignal
    obtain ⟨t, rest, hahead, ht, hend⟩ := hsignal.cons_ahead
    rw [hend.eq, Cursor.advance_cons hahead]
    exact (Token.symbol?_eq_name_iff.1 ht).2.symm
  have hmore : c.ahead ≠ [] := hr.ahead_ne_nil l.content_ne_nil
  have hbody' : l.home.IsBody left later :=
    ⟨fun l' hl' => hbody.home l' (List.mem_cons_of_mem _ hl'), by
      have := hbody.length_le
      rw [List.length_cons] at this
      omega⟩
  obtain ⟨hsound, hrest⟩ := readLines_complete passLimit limit (hp'.of_reads hnextReads) hk₁ hbody'
    hlater (hwithin.admits hadmits)
  refine ⟨hsound, ?_, ?_⟩
  · rw [Layout.add_ofLines_cons, Layout.add_ofLines_cons]
    exact hwithin.add _
  rw [readLines, if_neg hmore, hread, Draft.abandonLine, hskip, htext,
    Draft.report_eq_since _ _ rfl]
  dsimp only
  rw [readLines_since, hrest]
  rfl

end

end Breadboard.Definition
