import Breadboard.Proofs.Circuit.Links
import Breadboard.Proofs.Definition.LineStarts

/-!
# Connections that a reading makes

Which inputs are connected when a text is read onto a board, one after the other. The definitions
follow the readers from a single source up to the whole text and note each connection that is made;
a source that is refused, for whatever reason, leaves no note.

* `Draft.Wires`: a change of a draft that makes some connections and no others.
* `wires_readConnectionLine`, `wires_readLines`: lines and sections.
* `wires_draftOnto`: the connections that are there after a reading are those that were there before
  and those that are noted.
-/
namespace Breadboard.Definition

namespace Draft

/-- The connection that is made for a source, if it is made. -/
def attached (d : Draft) (t : Target) (index : Nat) (source : Reference) : List Link :=
  match d.output source, t.pin index source with
  | .ok output, .ok pin => d.circuit.linked output t.reference.device pin
  | _, _ => []

/-- The second draft has some more connections than the first one, and besides these the same. -/
def Wires (d : Draft) (made : List Link) (d' : Draft) : Prop :=
  d.circuit.ids.Nodup →
    d'.circuit.ids.Nodup ∧ d'.circuit.links.Perm (d.circuit.links ++ made)

variable {d d' d'' : Draft} {made made' : List Link}

theorem Wires.trans (h : d.Wires made d') (h' : d'.Wires made' d'') :
    d.Wires (made ++ made') d'' := by
  intro hn
  obtain ⟨hn', hmade⟩ := h hn
  obtain ⟨hn'', hmade'⟩ := h' hn'
  refine ⟨hn'', hmade'.trans ?_⟩
  rw [← List.append_assoc]
  exact hmade.append_right _

/-- What does not touch the circuit makes no connections. -/
theorem wires_nil (h : d'.circuit = d.circuit) : d.Wires [] d' := by
  intro hn
  rw [h, List.append_nil]
  exact ⟨hn, .refl _⟩

theorem wires_report (d : Draft) (i : Issue) : d.Wires [] (d.report i) := wires_nil rfl

theorem circuit_endLine (d : Draft) (c : Cursor) : (d.endLine c).2.circuit = d.circuit := by
  unfold endLine
  split
  · rfl
  · split <;> rfl

theorem wires_endLine (d : Draft) (c : Cursor) : d.Wires [] (d.endLine c).2 :=
  wires_nil (d.circuit_endLine c)

theorem wires_abandonLine (d : Draft) (c : Cursor) (i : Issue) :
    d.Wires [] (d.abandonLine c i).2 := wires_nil rfl

theorem wires_foldl {α : Type} {f : Draft → α → Draft} (hf : ∀ (d : Draft) a, d.Wires [] (f d a))
    (as : List α) (d : Draft) : d.Wires [] (as.foldl f d) := by
  induction as generalizing d with
  | nil => exact wires_nil rfl
  | cons a as ih => exact (hf d a).trans (ih _)

/-! ## Lines of other sections -/

theorem wires_takeName {names read : List (NameId × Token)} {t : Token}
    (h : d.takeName names t = .ok (read, d')) : d.Wires [] d' := by
  refine wires_nil ?_
  unfold takeName at h
  split at h
  · split at h <;> cases h <;> rfl
  · cases h
    rfl
  · cases h

theorem wires_declare (d : Draft) (kind : DeviceKind) (parameter : Option UInt32)
    (name : NameId × Token) : d.Wires [] (d.declare kind parameter name) := by
  simp only [declare]
  split
  · rename_i circuit hadd
    intro hn
    refine ⟨?_, ?_⟩
    · show circuit.ids.Nodup
      obtain ⟨hids, hnew⟩ := Circuit.ids_addDevice hadd
      rw [hids, List.nodup_append']
      exact ⟨hn, List.nodup_singleton _, fun x hx hx' => hnew (List.mem_singleton.1 hx' ▸ hx)⟩
    · rw [List.append_nil]
      exact .of_eq (Circuit.links_addDevice hadd)
  all_goals exact d.wires_report _

theorem wires_monitor (d : Draft) (r : Reference) : d.Wires [] (d.monitor r) := by
  refine wires_nil ?_
  unfold monitor
  split
  · rfl
  · split <;> rfl

end Draft

theorem wires_readNames (names : List (NameId × Token)) (c : Cursor) (d : Draft) :
    d.Wires [] (readNames names c d).1 := by
  fun_induction readNames names c d with
  | case1 => exact Draft.wires_nil rfl
  | case2 => exact Draft.wires_nil rfl
  | case3 _ _ _ _ _ _ _ _ htake _ ih => exact (Draft.wires_takeName htake).trans ih
  | case4 _ _ _ _ _ _ _ _ htake => exact Draft.wires_takeName htake

theorem wires_readDeviceLine (c : Cursor) (d : Draft) : d.Wires [] (readDeviceLine c d).2 := by
  have hnames := wires_readNames [] c d
  unfold readDeviceLine
  split
  · rename_i hread
    rw [hread] at hnames
    exact hnames.trans (Draft.wires_abandonLine _ _ _)
  · rename_i hread
    rw [hread] at hnames
    split
    · exact hnames.trans (Draft.wires_abandonLine _ _ _)
    · exact hnames.trans
        ((Draft.wires_foldl (fun d => d.wires_declare _ _) _ _).trans (Draft.wires_endLine _ _))

theorem wires_readMonitorLine (c : Cursor) (d : Draft) :
    d.Wires [] (readMonitorLine c d).2 := by
  fun_induction readMonitorLine c d with
  | case1 => exact Draft.wires_abandonLine _ _ _
  | case2 _ _ _ _ _ _ ih => exact (Draft.wires_monitor _ _).trans ih
  | case3 => exact (Draft.wires_monitor _ _).trans (Draft.wires_endLine _ _)

/-! ## Connection lines -/

/-- The connections that are made for the sources of a line, from a given one on. -/
def sourceLinks (t : Target) (index : Nat) (c : Cursor) (d : Draft) : List Link :=
  match _h : readReference d.declared c with
  | .error _ => []
  | .ok (source, c') =>
    d.attached t index source ++
      match d.attach t index source with
      | .error _ => []
      | .ok d => if c'.isAt .comma then sourceLinks t (index + 1) c'.advance d else []
termination_by c.ahead.length
decreasing_by
  exact Nat.lt_of_le_of_lt c'.suffix_advance.length_le (length_readReference_lt _h)

def lineLinks (s : Section) (c : Cursor) (d : Draft) : List Link :=
  match s with
  | .conns =>
    match readTarget d c with
    | .error _ => []
    | .ok (target, c) => sourceLinks target 0 c d
  | .devices | .monit => []

/-- The connections that are made for the lines of a section, as many as are left of its limit. -/
def linesLinks (s : Section) : Nat → Cursor → Draft → List Link
  | 0, _, _ => []
  | left + 1, c, d =>
    if c.ahead = [] then []
    else
      let (c', d') := readLine s c d
      lineLinks s c d ++ linesLinks s left c' d'

/-- A source is connected, and that is noted, or nothing is noted and no connection is made. -/
theorem attached_cases (d : Draft) (t : Target) (index : Nat) (source : Reference) :
    (∀ d', d.attach t index source = .ok d' → d.Wires (d.attached t index source) d') ∧
      ∀ issue, d.attach t index source = .error issue → d.attached t index source = [] := by
  simp only [Draft.attach, Draft.attached, Circuit.linked, bind, Except.bind]
  cases d.output source with
  | error issue => simp
  | ok output =>
    cases t.pin index source with
    | error issue => simp
    | ok pin =>
      cases hconnect : d.circuit.connect output t.reference.device pin with
      | ok circuit =>
        refine ⟨?_, fun issue h => by simp [hconnect] at h⟩
        simp only [hconnect]
        rintro d' ⟨⟩ hn
        refine ⟨?_, Circuit.perm_links_connect hn hconnect⟩
        show circuit.ids.Nodup
        rwa [Circuit.eq_modify_of_connect hconnect, Circuit.ids_modify]
      | error e =>
        refine ⟨?_, fun _ _ => by simp only [hconnect]⟩
        cases e with
        | inputConnected id pin =>
          simp only [hconnect]
          rintro d' ⟨⟩
          exact d.wires_report _
        | deviceAbsent | outputAbsent | inputAbsent => simp [hconnect]

theorem sourceLinks_of_error {t : Target} {index : Nat} {c : Cursor} {d : Draft} {issue : Issue}
    (h : readReference d.declared c = .error issue) : sourceLinks t index c d = [] := by
  rw [sourceLinks]
  split
  · rfl
  · rename_i hread
    rw [h] at hread
    cases hread

theorem sourceLinks_of_ok {t : Target} {index : Nat} {c c' : Cursor} {d : Draft}
    {source : Reference} (h : readReference d.declared c = .ok (source, c')) :
    sourceLinks t index c d =
      d.attached t index source ++
        match d.attach t index source with
        | .error _ => []
        | .ok d => if c'.isAt .comma then sourceLinks t (index + 1) c'.advance d else [] := by
  rw [sourceLinks]
  split
  · rename_i hread
    rw [h] at hread
    cases hread
  · rename_i hread
    rw [h] at hread
    cases hread
    rfl

theorem wires_readSources (t : Target) (index : Nat) (c : Cursor) (d : Draft) :
    d.Wires (sourceLinks t index c d) (readSources t index c d).2 := by
  fun_induction readSources t index c d with
  | case1 index c d issue hread =>
    rw [sourceLinks_of_error hread]
    exact Draft.wires_abandonLine _ _ _
  | case2 index c d source c' hread issue hattach =>
    rw [sourceLinks_of_ok hread, (attached_cases d t index source).2 issue hattach, hattach]
    exact Draft.wires_abandonLine _ _ _
  | case3 index c d source c' hread d' hattach hcomma ih =>
    rw [sourceLinks_of_ok hread]
    simp only [hattach, hcomma, if_true]
    exact ((attached_cases d t index source).1 d' hattach).trans ih
  | case4 index c d source c' hread d' hattach hcomma =>
    rw [sourceLinks_of_ok hread]
    simp only [hattach, hcomma]
    exact ((attached_cases d t index source).1 d' hattach).trans (Draft.wires_endLine _ _)

theorem wires_readConnectionLine (c : Cursor) (d : Draft) :
    d.Wires (lineLinks .conns c d) (readConnectionLine c d).2 := by
  simp only [lineLinks, readConnectionLine]
  cases readTarget d c with
  | error issue => exact Draft.wires_abandonLine _ _ _
  | ok target => exact wires_readSources _ _ _ _

theorem wires_readLine (s : Section) (c : Cursor) (d : Draft) :
    d.Wires (lineLinks s c d) (readLine s c d).2 := by
  cases s with
  | devices => exact wires_readDeviceLine c d
  | conns => exact wires_readConnectionLine c d
  | monit => exact wires_readMonitorLine c d

/-! ## Sections and texts -/

theorem wires_readLines (s : Section) (limit left : Nat) (c : Cursor) (d : Draft) :
    d.Wires (linesLinks s left c d) (readLines s limit left c d) := by
  induction left generalizing c d with
  | zero =>
    simp only [readLines, linesLinks]
    split
    · exact Draft.wires_nil rfl
    · exact d.wires_report _
  | succ left ih =>
    simp only [readLines, linesLinks]
    split
    · exact Draft.wires_nil rfl
    · exact (wires_readLine s c d).trans (ih _ _)

/-- The connections that are made when a plan is carried out, where sections have as many lines as a
limit allows. -/
def planLinks (limit : Nat) (d : Draft) : List Act → List Link
  | [] => []
  | act :: acts =>
    (match act with
      | .report _ => []
      | .body s lines => linesLinks s limit lines d) ++ planLinks limit (act.apply limit d) acts

theorem wires_foldl_apply (limit : Nat) (acts : List Act) (d : Draft) :
    d.Wires (planLinks limit d acts) (acts.foldl (Act.apply limit) d) := by
  induction acts generalizing d with
  | nil => exact Draft.wires_nil rfl
  | cons act acts ih =>
    cases act with
    | report i => exact (d.wires_report i).trans (ih _)
    | body s lines => exact (wires_readLines s limit limit lines d).trans (ih _)

/-- The connections that are made when a text is read onto a board. -/
def linksOnto (b : Board) (limit : Nat) (source : String) : List Link :=
  let scanned := scan b.names source.toList
  let pieces := chunks scanned.finish scanned.tokens
  planLinks limit (startOn b) (filePlan scanned.finish pieces.1 pieces.2)

/-- The connections that are there after a reading are those that were there before and those that
are noted. -/
theorem wires_draftOnto (b : Board) (limit : Nat) (source : String) :
    (startOn b).Wires (linksOnto b limit source) (draftOnto b limit source) := by
  have hfile := wires_foldl_apply limit
    (filePlan (scan b.names source.toList).finish
      (chunks (scan b.names source.toList).finish (scan b.names source.toList).tokens).1
      (chunks (scan b.names source.toList).finish (scan b.names source.toList).tokens).2)
    (startOn b)
  rw [← readFile_eq_plan limit _ _ rfl] at hfile
  exact hfile

end Breadboard.Definition
