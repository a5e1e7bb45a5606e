import Breadboard.Proofs.Definition.ConnectionLines
import Breadboard.Proofs.Definition.MonitorLines

/-!
# Lines of a section

What holds of one line of any section, and of the lines of a section one after another.

* `readLine_sound`, `readLine_complete`: one line, whatever its section.
* `readLines_sound`, `readLines_complete`: a section is read without issues if it consists of
  lines, at most as many as the limit, each of which may come after those before it.
-/
namespace Breadboard.Definition

variable {names : NameTable} {passLimit : Nat} {c c' e : Cursor} {d' : Draft} {k : Layout}
  {s : Section} {l : Line}

/-! ## Layouts of several lines -/

namespace Layout

/-- What is declared by two runs of lines one after the other. -/
def add (k k' : Layout) : Layout :=
  ⟨k.parts ++ k'.parts, k.wires ++ k'.wires, k.signals ++ k'.signals⟩

theorem add_ofLines_nil (k : Layout) : k.add (.ofLines []) = k := by
  simp [add, ofLines]

theorem add_ofLines_cons (k : Layout) (l : Line) (rest : List Line) :
    k.add (.ofLines (l :: rest)) = (k.add l.layout).add (.ofLines rest) := by
  simp [add, ofLines]

theorem add_ofLines_append (k : Layout) (ls ls' : List Line) :
    k.add (.ofLines (ls ++ ls')) = (k.add (.ofLines ls)).add (.ofLines ls') := by
  simp [add, ofLines]

end Layout

/-! ## One line -/

namespace Line

/-- The section that the line belongs to. -/
def home : Line → Section
  | device _ => .devices
  | connection _ => .conns
  | monitor _ => .monit

/-- The line may come after lines that declare a given layout. -/
def Valid (k : Layout) : Line → Prop
  | device decl => decl.Valid k
  | connection decl => decl.Valid k
  | monitor decl => decl.Valid k

@[simp]
theorem add_layout_device (k : Layout) (decl : DeviceDecl) :
    k.add (device decl).layout = k.addParts decl.parts := by
  simp [Layout.add, layout, Layout.addParts]

@[simp]
theorem add_layout_connection (k : Layout) (decl : ConnectionDecl) :
    k.add (connection decl).layout = k.addWires decl.wires := by
  simp [Layout.add, layout, Layout.addWires]

@[simp]
theorem add_layout_monitor (k : Layout) (decl : MonitorDecl) :
    k.add (monitor decl).layout = k.addSignals decl.signals := by
  simp [Layout.add, layout, Layout.addSignals]

/-- The symbols of the line before its semicolon. -/
def content : Line → List Symbol
  | device decl => decl.content
  | connection decl => decl.content
  | monitor decl => decl.content

theorem symbols_eq (l : Line) : l.symbols = l.content ++ [.mark .semicolon] := by
  cases l <;> rfl

theorem symbols_ne_nil (l : Line) : l.symbols ≠ [] := by
  simp [symbols_eq]

theorem split_symbols (hr : c.Reads l.symbols e) :
    ∃ c₁ : Cursor, c.Reads l.content c₁ ∧ c₁.Reads [.mark .semicolon] e :=
  (l.symbols_eq ▸ hr).split

/-- The last source or signal of the line. -/
def last? : Line → Option Signal
  | device _ => none
  | connection decl => decl.sources.getLast?
  | monitor decl => decl.signals.getLast?

/-- A line that has been read up to a cursor is not continued there. -/
structure EndsAt (l : Line) (e : Cursor) : Prop where
  comma : e.isAt .comma = false
  openBracket : e.isAt .openBracket = false
  last : ∀ s ∈ l.last?, s.EndsAt e

theorem endsAt_of_semicolon (l : Line) (h : e.current.symbol? = some (.mark .semicolon)) :
    l.EndsAt e where
  comma := by
    rw [← Bool.not_eq_true, Cursor.isAt_iff, h]
    decide
  openBracket := by
    rw [← Bool.not_eq_true, Cursor.isAt_iff, h]
    decide
  last s _ := s.endsAt_of_mark (by decide) h

/-- The wires of a connection line are between its target and its sources. -/
theorem ends_of_mem_wiresFrom {target : String} {first : InputPin} {index : Nat}
    {sources : List Signal} {w : Wire} (h : w ∈ wiresFrom target first index sources) :
    w.target = target ∧ w.source ∈ sources := by
  induction sources generalizing index with
  | nil => cases h
  | cons source rest ih =>
    rcases List.mem_cons.1 h with rfl | h
    · exact ⟨rfl, List.mem_cons_self⟩
    · exact (ih h).imp_right (List.mem_cons_of_mem _)

/-- A layout stays sound with one more line that may come next. -/
theorem Valid.sound (hp : c.Proper names) (hr : c.Reads l.content e) (hk : k.Sound names)
    (h : l.Valid k) : (k.add l.layout).Sound names := by
  cases l with
  | device decl =>
    obtain ⟨⟨-, logic, hlogic⟩, hnodup⟩ := h
    have hparts := DeviceDecl.parts_eq hlogic
    rw [add_layout_device]
    refine hk.addParts (fun p hpart => ?_) ?_ fun p hpart => ?_
    · rw [hparts] at hpart
      obtain ⟨name, hname, rfl⟩ := List.mem_map.1 hpart
      exact decl.mem_names hp hr hname
    · rw [hparts, List.map_append, List.map_map]
      simpa [Function.comp_def] using hnodup
    · rw [hparts] at hpart
      obtain ⟨name, hname, rfl⟩ := List.mem_map.1 hpart
      exact Logic.fresh_of_ofKind hlogic
  | connection decl =>
    obtain ⟨⟨p, hpart, hname, -⟩, -, hnodup⟩ := h
    rw [add_layout_connection]
    refine hk.addWires (fun w hw => ?_) hnodup
    rw [(ends_of_mem_wiresFrom hw).1]
    exact List.mem_map.2 ⟨p, hpart, hname⟩
  | monitor decl =>
    rw [add_layout_monitor]
    exact hk.addSignals h.signals h.nodup

end Line

/-- A line that is read without issues is one that may come next. -/
theorem readLine_sound (hp : c.Proper names) (hk : k.Sound names)
    (h : readLine s c (k.draft names passLimit) = (c', d')) (hissues : d'.issues = []) :
    ∃ l : Line, l.home = s ∧ l.Valid k ∧ c.Reads l.symbols c' ∧
      d' = (k.add l.layout).draft names passLimit := by
  cases s with
  | devices =>
    obtain ⟨decl, hvalid, hreads, rfl⟩ := readDeviceLine_sound hp hk h hissues
    exact ⟨.device decl, rfl, hvalid, hreads, by rw [Line.add_layout_device]⟩
  | conns =>
    obtain ⟨decl, hvalid, hreads, rfl⟩ := readConnectionLine_sound hp hk h hissues
    exact ⟨.connection decl, rfl, hvalid, hreads, by rw [Line.add_layout_connection]⟩
  | monit =>
    obtain ⟨decl, hvalid, hreads, rfl⟩ := readMonitorLine_sound hp hk h hissues
    exact ⟨.monitor decl, rfl, hvalid, hreads, by rw [Line.add_layout_monitor]⟩

/-- A line that may come next is read up to its end. -/
theorem readLine_content (passLimit : Nat) (hp : c.Proper names) (hk : k.Sound names)
    (hr : c.Reads l.content e) (hend : l.EndsAt e) (hvalid : l.Valid k) :
    readLine l.home c (k.draft names passLimit) =
      ((k.add l.layout).draft names passLimit).endLine e := by
  cases l with
  | device decl =>
    rw [Line.add_layout_device]
    exact readDeviceLine_complete passLimit hp hk hr hend.openBracket hvalid
  | connection decl =>
    rw [Line.add_layout_connection]
    exact readConnectionLine_complete passLimit hp hk hr hend.last hend.comma hvalid
  | monitor decl =>
    rw [Line.add_layout_monitor]
    exact readMonitorLine_complete passLimit hp hk hr hend.last hend.comma hvalid

/-- A line that may come next is read without issues. -/
theorem readLine_complete (passLimit : Nat) (hp : c.Proper names) (hk : k.Sound names)
    (hr : c.Reads l.symbols e) (hvalid : l.Valid k) :
    readLine l.home c (k.draft names passLimit) = (e, (k.add l.layout).draft names passLimit) := by
  obtain ⟨c₁, hcontent, hsemicolon⟩ := Line.split_symbols hr
  rw [readLine_content passLimit hp hk hcontent (l.endsAt_of_semicolon hsemicolon.current) hvalid,
    Draft.endLine_of_reads hsemicolon, hsemicolon.advance.eq]

/-! ## Lines one after another -/

/-- Each of the lines may come after those before it. -/
def Layout.Admits (k : Layout) : List Line → Prop
  | [] => True
  | l :: rest => l.Valid k ∧ (k.add l.layout).Admits rest

theorem Layout.admits_append_iff {ls ls' : List Line} :
    k.Admits (ls ++ ls') ↔ k.Admits ls ∧ (k.add (.ofLines ls)).Admits ls' := by
  induction ls generalizing k with
  | nil => simp [Admits, add_ofLines_nil]
  | cons l rest ih => simp only [List.cons_append, Admits, ih, add_ofLines_cons, and_assoc]

/-- The lines belong to the section, and there are not too many of them. -/
structure Section.IsBody (s : Section) (limit : Nat) (ls : List Line) : Prop where
  home : ∀ l ∈ ls, l.home = s
  length_le : ls.length ≤ limit

theorem Section.isBody_nil (s : Section) (limit : Nat) : s.IsBody limit [] where
  home _ h := by cases h
  length_le := Nat.zero_le limit

theorem Section.isBody_cons_iff {limit : Nat} {ls : List Line} :
    s.IsBody (limit + 1) (l :: ls) ↔ l.home = s ∧ s.IsBody limit ls := by
  constructor
  · rintro ⟨hhome, hlength⟩
    obtain ⟨hl, hls⟩ := List.forall_mem_cons.1 hhome
    exact ⟨hl, hls, Nat.le_of_succ_le_succ hlength⟩
  · rintro ⟨hl, hls, hlength⟩
    exact ⟨List.forall_mem_cons.2 ⟨hl, hls⟩, Nat.succ_le_succ hlength⟩

/-- A section that is read without issues consists of lines that may follow each other. -/
theorem readLines_sound {limit left : Nat} (hp : c.Proper names) (hk : k.Sound names)
    (h : (readLines s limit left c (k.draft names passLimit)).issues = []) :
    ∃ ls : List Line, s.IsBody left ls ∧
      Spelled c.ahead (ls.flatMap Line.symbols) ∧ k.Admits ls ∧
      (k.add (.ofLines ls)).Sound names ∧
      readLines s limit left c (k.draft names passLimit) =
        (k.add (.ofLines ls)).draft names passLimit := by
  induction left generalizing c k with
  | zero =>
    simp only [readLines] at h ⊢
    split at h
    · rename_i hend
      refine ⟨[], s.isBody_nil 0, by rw [hend]; rfl, trivial, ?_, ?_⟩
      · rwa [Layout.add_ofLines_nil]
      · rw [if_pos hend, Layout.add_ofLines_nil]
    · exact absurd h (Draft.report_issues_ne_nil _ _)
  | succ left ih =>
    simp only [readLines] at h ⊢
    split at h
    · rename_i hend
      refine ⟨[], s.isBody_nil _, by rw [hend]; rfl, trivial, ?_, ?_⟩
      · rwa [Layout.add_ofLines_nil]
      · rw [if_pos hend, Layout.add_ofLines_nil]
    · rename_i hmore
      rw [if_neg hmore]
      generalize hread : readLine s c (k.draft names passLimit) = x at h ⊢
      obtain ⟨c', d'⟩ := x
      have hd' := (builds_readLines s limit left c' d').leads.issues_eq_nil h
      obtain ⟨l, hhome, hvalid, hreads, rfl⟩ := readLine_sound hp hk hread hd'
      obtain ⟨_, hcontent, -⟩ := Line.split_symbols hreads
      obtain ⟨ls, hbody, hspelled, hadmits, hsound, heq⟩ :=
        ih (hp.of_reads hreads) (hvalid.sound hp hcontent hk) h
      refine ⟨l :: ls, Section.isBody_cons_iff.2 ⟨hhome, hbody⟩, ?_, ⟨hvalid, hadmits⟩, ?_, ?_⟩
      · obtain ⟨-, ts, hts, -, hss⟩ := hreads
        rw [List.flatMap_cons]
        exact spelled_append_iff.2 ⟨ts, c'.ahead, hts, hss, hspelled⟩
      · rwa [Layout.add_ofLines_cons]
      · rw [heq, Layout.add_ofLines_cons]

/-- Lines that may follow each other are read without issues, and reading goes on behind them. -/
theorem readLines_append (passLimit limit left : Nat) {ls : List Line}
    (hp : c.Proper names) (hk : k.Sound names) (hr : c.Reads (ls.flatMap Line.symbols) e)
    (hhome : ∀ l ∈ ls, l.home = s) (hadmits : k.Admits ls) :
    (k.add (.ofLines ls)).Sound names ∧
      readLines s limit (left + ls.length) c (k.draft names passLimit) =
        readLines s limit left e ((k.add (.ofLines ls)).draft names passLimit) := by
  induction ls generalizing c k with
  | nil =>
    obtain rfl := hr.eq
    rw [Layout.add_ofLines_nil]
    exact ⟨hk, rfl⟩
  | cons l ls ih =>
    obtain ⟨rfl, hhome⟩ := List.forall_mem_cons.1 hhome
    obtain ⟨hvalid, hadmits⟩ := hadmits
    rw [List.flatMap_cons] at hr
    obtain ⟨c₁, hl, hls⟩ := hr.split
    obtain ⟨_, hcontent, -⟩ := Line.split_symbols hl
    have hmore : c.ahead ≠ [] := hl.ahead_ne_nil l.symbols_ne_nil
    obtain ⟨hsound, hread⟩ := ih (hp.of_reads hl) (hvalid.sound hp hcontent hk) hls hhome hadmits
    rw [Layout.add_ofLines_cons]
    refine ⟨hsound, ?_⟩
    rw [List.length_cons, ← Nat.add_assoc, readLines, if_neg hmore,
      readLine_complete passLimit hp hk hl hvalid]
    exact hread

/-- Lines that may follow each other are read without issues. -/
theorem readLines_complete (passLimit limit : Nat) {left : Nat} {ls : List Line}
    (hp : c.Proper names) (hk : k.Sound names) (hbody : s.IsBody left ls)
    (hspelled : Spelled c.ahead (ls.flatMap Line.symbols)) (hadmits : k.Admits ls) :
    (k.add (.ofLines ls)).Sound names ∧
      readLines s limit left c (k.draft names passLimit) =
        (k.add (.ofLines ls)).draft names passLimit := by
  rw [← List.append_nil (ls.flatMap Line.symbols)] at hspelled
  obtain ⟨e, hr, hend⟩ := Cursor.exists_reads_of_spelled hspelled
  obtain ⟨more, rfl⟩ := Nat.exists_eq_add_of_le' hbody.length_le
  obtain ⟨hsound, hread⟩ := readLines_append passLimit limit more hp hk hr hbody.home hadmits
  refine ⟨hsound, ?_⟩
  rw [hread]
  cases more <;> rw [readLines, if_pos (spelled_nil_iff.1 hend)]

end Breadboard.Definition
