import Breadboard.Proofs.Definition.Grammar

/-!
# Reading symbols

`Cursor.Reads c ss e` says that the tokens from one cursor up to another spell the symbols `ss`.
Both directions between readers and grammar are said with it: a reader that succeeds has read the
symbols of some derivation, and a cursor from which such symbols can be read makes it succeed.

* `Reads.cons`, `Reads.advance`: reading one symbol is advancing over its token.
* `Reads.trans`, `Reads.split`: what is read piece by piece is read as a whole.
-/
namespace Breadboard.Definition

/-! ## Symbols of tokens -/

namespace Token

variable {t : Token}

@[simp]
theorem symbol?_eq_mark_iff {m : Mark} : t.symbol? = some (.mark m) ↔ t.kind = .mark m := by
  unfold symbol?
  cases t.kind <;> simp

@[simp]
theorem symbol?_eq_name_iff {text : String} :
    t.symbol? = some (.name text) ↔ (∃ id, t.kind = .name id) ∧ t.text = text := by
  unfold symbol?
  cases t.kind <;> simp

@[simp]
theorem symbol?_eq_keyword_iff {k : DeviceKind} :
    t.symbol? = some (.keyword k) ↔ ∃ id, t.kind = .logic k id := by
  unfold symbol?
  cases t.kind <;> simp

@[simp]
theorem symbol?_eq_heading_iff {s : Section} :
    t.symbol? = some (.heading s) ↔ ∃ id, t.kind = .heading s id := by
  unfold symbol?
  cases t.kind <;> simp

@[simp]
theorem symbol?_eq_number_iff {digits : String} :
    t.symbol? = some (.number digits) ↔ t.kind = .number ∧ t.text = digits := by
  unfold symbol?
  cases t.kind <;> simp

/-- The number in the token of a name is the one that the table keeps. -/
def Numbered (names : NameTable) (t : Token) : Prop :=
  ∀ id, t.kind = .name id → names.query? t.text = some id

theorem Numbered.idOf_eq {names : NameTable} {id : NameId} (h : t.Numbered names)
    (hkind : t.kind = .name id) : names.idOf t.text = id :=
  NameTable.idOf_of_query? (h id hkind)

theorem Numbered.mem_names {names : NameTable} {id : NameId} (h : t.Numbered names)
    (hkind : t.kind = .name id) : t.text ∈ names.names :=
  NameTable.mem_names_of_query? (h id hkind)

end Token

/-- The tokens have the given symbols, one by one. -/
def Spelled (ts : List Token) (ss : List Symbol) : Prop := ts.map Token.symbol? = ss.map some

theorem spelled_nil_iff {ts : List Token} : Spelled ts [] ↔ ts = [] := List.map_eq_nil_iff

theorem spelled_cons_iff {ts : List Token} {s : Symbol} {ss : List Symbol} :
    Spelled ts (s :: ss) ↔ ∃ t rest, ts = t :: rest ∧ t.symbol? = some s ∧ Spelled rest ss := by
  simp only [Spelled, List.map_cons, List.map_eq_cons_iff]

theorem spelled_append_iff {ts : List Token} {ss ss' : List Symbol} :
    Spelled ts (ss ++ ss') ↔ ∃ us vs, ts = us ++ vs ∧ Spelled us ss ∧ Spelled vs ss' := by
  simp only [Spelled, List.map_append, List.map_eq_append_iff]

namespace Cursor

variable {c e : Cursor} {s : Symbol} {ss ss' : List Symbol}

/-- The tokens from the first cursor up to the second one spell the symbols. -/
structure Reads (c : Cursor) (ss : List Symbol) (e : Cursor) : Prop where
  stop : e.stop = c.stop
  ahead : ∃ ts, c.ahead = ts ++ e.ahead ∧ e.previous = ts.getLastD c.previous ∧ Spelled ts ss

/-- The section ends with an opening square bracket or with the file, and the names in it have the
numbers of a table. -/
structure Proper (names : NameTable) (c : Cursor) : Prop where
  stop : ∀ s, c.stop.symbol? = some s → s = .mark .openSquare
  numbered : ∀ t ∈ c.ahead, t.Numbered names

theorem advance_cons {t : Token} {rest : List Token} (h : c.ahead = t :: rest) :
    c.advance = { c with previous := t, ahead := rest } := by
  unfold advance
  split
  · rename_i hnil
    rw [h] at hnil
    cases hnil
  · rename_i hcons
    rw [h] at hcons
    cases hcons
    rfl

theorem current_cons {t : Token} {rest : List Token} (h : c.ahead = t :: rest) :
    c.current = t := by
  rw [current, h, List.headD_cons]

@[simp]
theorem stop_advance (c : Cursor) : c.advance.stop = c.stop := by
  unfold advance
  split <;> rfl

theorem isAt_iff {m : Mark} : c.isAt m = true ↔ c.current.symbol? = some (.mark m) := by
  rw [Token.symbol?_eq_mark_iff, isAt, Token.isMark, decide_eq_true_iff]

namespace Reads

theorem refl (c : Cursor) : c.Reads [] c := ⟨rfl, [], rfl, rfl, rfl⟩

/-- Nothing is read from a cursor to no other one. -/
theorem eq (h : c.Reads [] e) : e = c := by
  obtain ⟨hstop, ts, hts, hprevious, hss⟩ := h
  obtain rfl := spelled_nil_iff.1 hss
  cases c
  cases e
  simp_all

theorem trans {d : Cursor} (h : c.Reads ss d) (h' : d.Reads ss' e) : c.Reads (ss ++ ss') e := by
  obtain ⟨hstop, ts, hts, hprevious, hss⟩ := h
  obtain ⟨hstop', us, hus, hprevious', hss'⟩ := h'
  refine ⟨hstop'.trans hstop, ts ++ us, by rw [hts, hus, List.append_assoc], ?_, ?_⟩
  · rw [hprevious', hprevious]
    simp only [List.getLastD_eq_getLast?, List.getLast?_append]
    cases us.getLast? <;> rfl
  · exact spelled_append_iff.2 ⟨ts, us, rfl, hss, hss'⟩

/-- Where two pieces are read, there is a cursor between these. -/
theorem split (h : c.Reads (ss ++ ss') e) : ∃ d : Cursor, c.Reads ss d ∧ d.Reads ss' e := by
  obtain ⟨hstop, ts, hts, hprevious, hss⟩ := h
  obtain ⟨us, vs, rfl, hus, hvs⟩ := spelled_append_iff.1 hss
  refine ⟨⟨us.getLastD c.previous, vs ++ e.ahead, c.stop⟩, ⟨rfl, us, ?_, rfl, hus⟩,
    hstop, vs, rfl, ?_, hvs⟩
  · rw [hts, List.append_assoc]
  · rw [hprevious]
    simp only [List.getLastD_eq_getLast?, List.getLast?_append]
    cases vs.getLast? <;> rfl

/-- The token of the next symbol is the current one. -/
theorem cons_ahead (h : c.Reads (s :: ss) e) :
    ∃ t rest, c.ahead = t :: rest ∧ t.symbol? = some s ∧ c.advance.Reads ss e := by
  obtain ⟨hstop, ts, hts, hprevious, hss⟩ := h
  obtain ⟨t, rest, rfl, ht, hrest⟩ := spelled_cons_iff.1 hss
  refine ⟨t, rest ++ e.ahead, hts, ht, ?_, rest, ?_, ?_, hrest⟩
  · rw [hstop, stop_advance]
  · rw [advance_cons hts]
    rfl
  · rw [hprevious, advance_cons hts]
    simp only [List.getLastD_eq_getLast?, List.getLast?_cons]
    rfl

theorem current (h : c.Reads (s :: ss) e) : c.current.symbol? = some s := by
  obtain ⟨t, rest, hc, ht, -⟩ := h.cons_ahead
  rw [current_cons hc, ht]

theorem advance (h : c.Reads (s :: ss) e) : c.advance.Reads ss e := by
  obtain ⟨t, rest, -, -, hrest⟩ := h.cons_ahead
  exact hrest

theorem ahead_ne_nil (h : c.Reads ss e) (hss : ss ≠ []) : c.ahead ≠ [] := by
  obtain ⟨s, rest, rfl⟩ := List.exists_cons_of_ne_nil hss
  obtain ⟨t, more, hc, -⟩ := h.cons_ahead
  rw [hc]
  exact List.cons_ne_nil t more

end Reads

/-- A line is skipped up to its semicolon. -/
theorem skipLine_of_reads {ss : List Symbol} (hr : c.Reads (ss ++ [.mark .semicolon]) e)
    (hss : .mark .semicolon ∉ ss) : c.skipLine = e := by
  induction ss generalizing c with
  | nil =>
    rw [skipLine.eq_def, if_neg (hr.ahead_ne_nil (by simp)), if_pos (isAt_iff.2 hr.current),
      hr.advance.eq]
  | cons s ss ih =>
    rw [List.mem_cons, not_or] at hss
    have hat : c.isAt .semicolon = false := by
      rw [← Bool.not_eq_true, isAt_iff, hr.current]
      exact fun h => hss.1 (Option.some.inj h).symm
    rw [skipLine.eq_def, if_neg (hr.ahead_ne_nil (by simp)), hat, if_neg Bool.false_ne_true]
    exact ih hr.advance hss.2

/-- Where the tokens spell two pieces, there is a cursor between these. -/
theorem exists_reads_of_spelled (h : Spelled c.ahead (ss ++ ss')) :
    ∃ e, c.Reads ss e ∧ Spelled e.ahead ss' := by
  obtain ⟨us, vs, hc, hss, hss'⟩ := spelled_append_iff.1 h
  exact ⟨⟨us.getLastD c.previous, vs, c.stop⟩, ⟨rfl, us, hc, rfl, hss⟩, hss'⟩

namespace Proper

variable {names : NameTable}

theorem mem_names {word : String} (h : c.Proper names) (hr : c.Reads ss e)
    (hword : .name word ∈ ss) : word ∈ names.names := by
  obtain ⟨-, ts, hts, -, hss⟩ := hr
  have hmem : some (Symbol.name word) ∈ ts.map Token.symbol? := by
    rw [hss]
    exact List.mem_map_of_mem hword
  obtain ⟨t, ht, hsymbol⟩ := List.mem_map.1 hmem
  obtain ⟨⟨id, hkind⟩, rfl⟩ := Token.symbol?_eq_name_iff.1 hsymbol
  exact (h.numbered t (hts ▸ List.mem_append_left _ ht)).mem_names hkind

theorem of_reads (h : c.Proper names) (hr : c.Reads ss e) : e.Proper names := by
  obtain ⟨hstop, ts, hts, -, -⟩ := hr
  refine ⟨by rw [hstop]; exact h.stop, fun t ht => h.numbered t ?_⟩
  rw [hts]
  exact List.mem_append_right ts ht

theorem advance (h : c.Proper names) : c.advance.Proper names := by
  refine ⟨by rw [stop_advance]; exact h.stop, fun t ht => h.numbered t ?_⟩
  exact c.suffix_advance.subset ht

/-- A current token other than an opening square bracket is not the end of the section. -/
theorem ahead_eq (h : c.Proper names) (hs : c.current.symbol? = some s)
    (hne : s ≠ .mark .openSquare) : c.ahead = c.current :: c.advance.ahead := by
  cases hc : c.ahead with
  | nil =>
    rw [Cursor.current, hc, List.headD_nil] at hs
    exact absurd (h.stop s hs) hne
  | cons t rest => rw [current_cons hc, advance_cons hc]

end Proper

theorem Reads.cons {names : NameTable} (hp : c.Proper names) (hs : c.current.symbol? = some s)
    (hne : s ≠ .mark .openSquare) (h : c.advance.Reads ss e) : c.Reads (s :: ss) e := by
  obtain ⟨hstop, ts, hts, hprevious, hss⟩ := h
  have hahead := hp.ahead_eq hs hne
  refine ⟨by rw [hstop, stop_advance], c.current :: ts, by rw [hahead, hts, List.cons_append], ?_,
    spelled_cons_iff.2 ⟨_, _, rfl, hs, hss⟩⟩
  rw [hprevious, advance_cons hahead]
  simp only [List.getLastD_eq_getLast?, List.getLast?_cons]
  rfl

end Cursor

end Breadboard.Definition
