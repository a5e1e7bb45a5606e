import Breadboard.Proofs.Definition.ConnectionLines
import Breadboard.Proofs.Definition.Filling
import Breadboard.Proofs.Definition.LineStarts
import Breadboard.Proofs.Definition.Sections

/-!
# What becomes of a connection line

The sources of a connection line go to consecutive inputs of the target, each to its own. A source
whose input has a driver already is reported, and the line goes on behind it. The first source that
finds no input left is reported, and the line is given up there; what has been connected before it
stays.

* `readSources_of_reads`: reading sources is attaching them one after the other, and a line that is
  given up ends at its semicolon like any other one.
* `attachAll_eq`: what is made of the sources, all together.
* `readConnectionLine_of_comesOnto`: what is made of every connection line of a text whose signals
  stand for something, wherever it stands.
-/
namespace Breadboard.Definition

variable {names : NameTable} {declared : List NameId} {c c' e : Cursor} {d d' : Draft}
  {t : Target} {r source : Reference} {s : Signal} {device : Device} {first : InputPin}
  {output : Terminal} {index : Nat}

/-! ## Words -/

/-- The words of a reference, in order. -/
def Reference.words (r : Reference) : List Token := r.name :: r.pin.toList

/-- From the first cursor up to the second one, the words that may be names are the given ones. -/
def Cursor.Covers (c : Cursor) (words : List Token) (e : Cursor) : Prop :=
  ∃ line, c.ahead = line ++ e.ahead ∧ line.filter Token.isName = words

namespace Cursor.Covers

variable {words words' : List Token} {id : NameId} {m : Mark}

theorem refl (c : Cursor) : c.Covers [] c := ⟨[], rfl, rfl⟩

theorem trans (h : c.Covers words c') (h' : c'.Covers words' e) :
    c.Covers (words ++ words') e := by
  obtain ⟨line, hline, rfl⟩ := h
  obtain ⟨line', hline', rfl⟩ := h'
  exact ⟨line ++ line', by rw [hline, hline', List.append_assoc], List.filter_append ..⟩

theorem name (hp : c.Proper names) (h : c.current.kind = .name id) :
    c.Covers [c.current] c.advance := by
  have hsymbol : c.current.symbol? = some (.name c.current.text) :=
    Token.symbol?_eq_name_iff.2 ⟨⟨id, h⟩, rfl⟩
  refine ⟨[c.current], hp.ahead_eq hsymbol (by simp), ?_⟩
  simp [Token.isName, h]

theorem mark (hp : c.Proper names) (h : c.isAt m = true) (hm : m ≠ .openSquare) :
    c.Covers [] c.advance := by
  have hsymbol := Cursor.isAt_iff.1 h
  refine ⟨[c.current], hp.ahead_eq hsymbol (by simpa using hm), ?_⟩
  simp [Token.isName, Token.symbol?_eq_mark_iff.1 hsymbol]

end Cursor.Covers

theorem covers_readPin {id : NameId} {word : Token} (hp : c.Proper names)
    (h : readPin id word c = .ok (r, c')) : r.name = word ∧ c.Covers r.pin.toList c' := by
  simp only [readPin] at h
  split at h
  · rename_i hdot
    split at h
    · rename_i hname
      cases h
      have hat : c.isAt .dot = true := by simp [Cursor.isAt, Token.isMark, hdot]
      exact ⟨rfl, (Cursor.Covers.mark hp hat (by decide)).trans (.name hp.advance hname)⟩
    · cases h
    · cases h
  · cases h
  · cases h
    exact ⟨rfl, .refl c⟩

/-- What is read as a reference are its words. -/
theorem covers_readReference (hp : c.Proper names)
    (h : readReference declared c = .ok (r, c')) : c.Covers r.words c' := by
  unfold readReference at h
  split at h
  · cases h
  rename_i word rest hc
  split at h
  · rename_i id hkind
    split at h
    · obtain ⟨hname, hcovers⟩ := covers_readPin hp.advance h
      have hcurrent : c.current = word := Cursor.current_cons hc
      have hword := Cursor.Covers.name hp (hcurrent ▸ hkind)
      rw [hcurrent, ← hname] at hword
      exact hword.trans hcovers
    · cases h
  · cases h
  · cases h

/-! ## Sources of a line -/

/-- Attaches sources one after the other, up to the first one that is refused. -/
def Draft.attachAll (t : Target) (index : Nat) (d : Draft) : List Reference → Draft
  | [] => d
  | source :: sources =>
    match d.attach t index source with
    | .ok d' => d'.attachAll t (index + 1) sources
    | .error issue => d.report issue

theorem declared_attach (h : d.attach t index source = .ok d') : d'.declared = d.declared := by
  obtain ⟨_, _, _, -, -, rfl⟩ | ⟨_, rfl⟩ := Draft.attach_cases h <;> rfl

/-- A signal with a mark behind it is read as a reference. -/
theorem readReference_of_reads {m : Mark} {more : List Symbol} (hp : c.Proper names)
    (hr : c.Reads (s.symbols ++ .mark m :: more) e) (hdot : m ≠ .dot) (hsquare : m ≠ .openSquare)
    (hdeclared : names.idOf s.device ∈ declared) :
    ∃ r c₁, readReference declared c = .ok (r, c₁) ∧ r.Denotes names s ∧
      c.Covers r.words c₁.advance ∧ c₁.Proper names ∧ c₁.Reads (.mark m :: more) e := by
  obtain ⟨c₁, hsignal, hr₁⟩ := hr.split
  have hp₁ := hp.of_reads hsignal
  obtain ⟨r, hread, hdenotes⟩ := readReference_complete hp hsignal
    (s.endsAt_of_mark hdot hr₁.current) hdeclared
  have hcovers := (covers_readReference hp hread).trans
    (.mark hp₁ (Cursor.isAt_iff.2 hr₁.current) hsquare)
  rw [List.append_nil] at hcovers
  exact ⟨r, c₁, hread, hdenotes, hcovers, hp₁, hr₁⟩

/-- Reading sources is attaching them one after the other. A line that is given up is skipped up to
its semicolon, so it ends where it ends otherwise. -/
theorem readSources_of_reads {signals : List Signal} (hp : c.Proper names)
    (hne : signals ≠ [])
    (hr : c.Reads (separated Signal.symbols signals ++ [.mark .semicolon]) e)
    (hdeclared : ∀ s ∈ signals, names.idOf s.device ∈ declared) :
    ∃ sources : List Reference, List.Forall₂ (Reference.Denotes names) sources signals ∧
      c.Covers (sources.flatMap Reference.words) e ∧
      ∀ t index d, d.declared = declared →
        readSources t index c d = (e, d.attachAll t index sources) := by
  induction signals generalizing c with
  | nil => exact absurd rfl hne
  | cons s rest ih =>
    obtain ⟨hs, hdeclared⟩ := List.forall_mem_cons.1 hdeclared
    by_cases hrest : rest = []
    · subst hrest
      obtain ⟨r, c₁, hread, hdenotes, hcovers, -, hend⟩ :=
        readReference_of_reads hp hr (by decide) (by decide) hs
      have hcomma : c₁.isAt .comma = false := by
        rw [← Bool.not_eq_true, Cursor.isAt_iff, hend.current]
        decide
      have hskip : c₁.skipLine = e := by
        rw [← List.nil_append [Symbol.mark .semicolon]] at hend
        exact Cursor.skipLine_of_reads hend List.not_mem_nil
      obtain rfl : e = c₁.advance := hend.advance.eq
      refine ⟨[r], .cons hdenotes .nil, by rwa [List.flatMap_singleton], fun t index d hd => ?_⟩
      subst hd
      rw [readSources_eq hread, Draft.attachAll]
      cases d.attach t index r with
      | error issue => simp only [Draft.abandonLine, hskip]
      | ok d' =>
        simp only [hcomma, Bool.false_eq_true, if_false, Draft.attachAll]
        exact Draft.endLine_of_reads hend
    · rw [separated_cons hrest, List.append_assoc, List.cons_append] at hr
      obtain ⟨r, c₁, hread, hdenotes, hcovers, hp₁, hr₁⟩ :=
        readReference_of_reads hp hr (by decide) (by decide) hs
      have hcomma : c₁.isAt .comma = true := Cursor.isAt_iff.2 hr₁.current
      -- no signal and no comma is taken for the end of the line
      have hskip : c₁.skipLine = e := by
        rw [← List.cons_append] at hr₁
        refine Cursor.skipLine_of_reads hr₁ fun hmem => ?_
        rcases List.mem_cons.1 hmem with hmem | hmem
        · cases hmem
        · exact (inner_of_mem_separated (fun _ _ => Signal.inner_of_mem_symbols) hmem).1 rfl
      obtain ⟨sources, hsources, hcovers', hreads⟩ := ih hp₁.advance hrest hr₁.advance hdeclared
      refine ⟨r :: sources, .cons hdenotes hsources, hcovers.trans hcovers', fun t index d hd => ?_⟩
      subst hd
      rw [readSources_eq hread, Draft.attachAll]
      cases hattach : d.attach t index r with
      | error issue => simp only [Draft.abandonLine, hskip]
      | ok d' =>
        simp only [hcomma, if_true]
        exact hreads t (index + 1) d' (declared_attach hattach)

/-! ## Reports of a line -/

/-- Reports a source whose input has a driver already. -/
def Target.connectedIssue (t : Target) (index : Nat) (source : Reference) : Issue :=
  (Fault.alreadyConnected t.reference.name.text (t.first.plus index)).on source.name

/-- The reports of the sources from one at `index` on whose inputs have drivers already. -/
def Target.connectedIssues (t : Target) (l : Logic) (index : Nat) (sources : List Reference) :
    List Issue :=
  ((sources.zipIdx index).filter fun x => (l.driver? (t.first.plus x.2)).isSome).map
    fun x => t.connectedIssue x.2 x.1

/-! ## One source -/

/-- What the device has to do with the target of a line. -/
structure Target.Meets (t : Target) (d : Draft) (device : Device) : Prop where
  find : d.circuit.find? t.reference.device = some device
  inputs : t.inputs = device.gateInputs
  first : (device.logic.input? t.first).isSome

theorem Target.Meets.held (h : t.Meets d device) : t.Held d :=
  ⟨device, h.find, h.inputs.symm, h.first⟩

/-- A source with room is put in place at its input, or reported if that has a driver already. -/
theorem attach_of_room (hn : d.circuit.ids.Nodup) (h : t.Meets d device)
    (houtput : d.output source = .ok output) (hroom : index < device.logic.room t.first) :
    ∃ l, device.logic.Filled t.first index [output] l ∧
      d.attach t index source = .ok { d with
        circuit := d.circuit.modify t.reference.device fun _ => l
        issues := d.issues ++ t.connectedIssues device.logic index [source] } := by
  have hpin : t.pin index source = .ok (t.first.plus index) := by
    rw [target_pin_eq h.inputs h.first, if_pos hroom]
  obtain ⟨device', hfind, hhas⟩ := h.held.isSome_input? hpin
  obtain rfl : device = device' := Option.some.inj (h.find.symm.trans hfind)
  obtain ⟨driver, hdriver⟩ := Option.isSome_iff_exists.1 hhas
  rw [Device.input?] at hdriver
  cases driver with
  | none =>
    have hconnect := Circuit.connect_eq_ok_iff.2
      ⟨hasTerminal_output houtput, ⟨device, h.find, hdriver⟩, rfl⟩
    refine ⟨_, .of_open hdriver, ?_⟩
    have hnone : t.connectedIssues device.logic index [source] = [] := by
      simp [Target.connectedIssues, Logic.driver?, hdriver]
    have hmodify : d.circuit.modify t.reference.device (·.drive (t.first.plus index) output) =
        d.circuit.modify t.reference.device fun _ =>
          device.logic.drive (t.first.plus index) output :=
      Circuit.modify_congr hn h.find rfl
    simp only [Draft.attach, bind, Except.bind, houtput, hpin, hconnect]
    rw [hmodify, hnone, List.append_nil]
  | some driver =>
    refine ⟨_, .of_driven hdriver, ?_⟩
    cases hconnect : d.circuit.connect output t.reference.device (t.first.plus index) with
    | ok circuit =>
      obtain ⟨-, ⟨device', hfind, hopen⟩, -⟩ := Circuit.connect_eq_ok_iff.1 hconnect
      obtain rfl : device = device' := Option.some.inj (h.find.symm.trans hfind)
      rw [Device.input?, hdriver] at hopen
      cases hopen
    | error error =>
      obtain rfl := connect_error h.held houtput hpin hconnect
      have hreport : t.connectedIssues device.logic index [source] =
          [t.connectedIssue index source] := by
        simp [Target.connectedIssues, Logic.driver?, hdriver]
      simp only [Draft.attach, bind, Except.bind, houtput, hpin, hconnect]
      rw [hreport, Circuit.modify_logic hn h.find]
      rfl

theorem attach_of_full (h : t.Meets d device) (houtput : d.output source = .ok output)
    (hfull : device.logic.room t.first ≤ index) :
    d.attach t index source = .error (t.unfitIssue source) := by
  have hpin : t.pin index source = .error (t.unfitIssue source) := by
    rw [target_pin_eq h.inputs h.first, if_neg (by omega)]
  simp only [Draft.attach, bind, Except.bind, houtput, hpin]

/-- The target of a line stays the target of the line. -/
theorem Target.Meets.filled {l : Logic} {outputs : List Terminal} (h : t.Meets d device)
    (hl : device.logic.Filled t.first index outputs l) (is : List Issue) :
    t.Meets { d with
      circuit := d.circuit.modify t.reference.device fun _ => l, issues := is }
      { device with logic := l } where
  find := by rw [Circuit.find?_modify, if_pos rfl, h.find]; rfl
  inputs := h.inputs.trans (hl.gateInputs_eq device.id).symm
  first := (hl.isSome_input? t.first).2 h.first

/-- Attaching a source leaves the outputs in place. -/
theorem Signal.StandsFor.attach (h : s.StandsFor names d output)
    (hattach : d.attach t index source = .ok d') : s.StandsFor names d' output := by
  obtain ⟨_, _, circuit, -, hconnect, rfl⟩ | ⟨_, rfl⟩ := Draft.attach_cases hattach
  · refine ⟨h.device, h.declared, ?_, h.pin⟩
    rw [Circuit.hasTerminal_connect hconnect]
    exact h.output
  · exact ⟨h.device, h.declared, h.output, h.pin⟩

/-! ## All sources -/

theorem connectedIssues_cons (t : Target) (l : Logic) (index : Nat) (source : Reference)
    (sources : List Reference) :
    t.connectedIssues l index (source :: sources) =
      t.connectedIssues l index [source] ++ t.connectedIssues l (index + 1) sources := by
  unfold Target.connectedIssues
  rw [List.zipIdx_cons, List.zipIdx_singleton, ← List.map_append, ← List.filter_append]
  rfl

/-- The reports are a matter of the inputs that the sources are for. -/
theorem connectedIssues_congr {l l' : Logic} {sources : List Reference}
    (h : ∀ i, index ≤ i → i < index + sources.length →
      l.driver? (t.first.plus i) = l'.driver? (t.first.plus i)) :
    t.connectedIssues l index sources = t.connectedIssues l' index sources := by
  unfold Target.connectedIssues
  congr 1
  refine List.filter_congr fun ⟨source, i⟩ hmem => ?_
  obtain ⟨hle, hlt, -⟩ := List.mem_zipIdx hmem
  simp only [h i hle hlt]

/-- What is made of sources: those with room are put in place at their inputs or reported, the first
one without room is reported, and the ones behind it do nothing. -/
theorem attachAll_eq {sources : List Reference} {signals : List Signal} {outputs : List Terminal}
    (hn : d.circuit.ids.Nodup) (h : t.Meets d device)
    (hdenotes : List.Forall₂ (Reference.Denotes names) sources signals)
    (houtputs : List.Forall₂ (Signal.StandsFor names d) signals outputs) :
    ∃ l, device.logic.Filled t.first index
        (outputs.take (device.logic.room t.first - index)) l ∧
      d.attachAll t index sources =
        { d with
          circuit := d.circuit.modify t.reference.device fun _ => l
          issues := d.issues ++
            t.connectedIssues device.logic index
              (sources.take (device.logic.room t.first - index)) ++
            (sources[device.logic.room t.first - index]?).toList.map t.unfitIssue } := by
  induction sources generalizing d device index signals outputs with
  | nil =>
    cases hdenotes
    cases houtputs
    refine ⟨device.logic, by rw [List.take_nil]; exact .nil _ _ _, ?_⟩
    rw [Circuit.modify_logic hn h.find]
    simp [Draft.attachAll, Target.connectedIssues]
  | cons source sources ih =>
    obtain _ | ⟨hsource, hdenotes⟩ := hdenotes
    obtain _ | ⟨hsignal, houtputs⟩ := houtputs
    rename_i s signals output outputs
    have houtput := hsignal.output_eq hsource
    by_cases hroom : index < device.logic.room t.first
    · obtain ⟨room, hleft⟩ : ∃ room, device.logic.room t.first - index = room + 1 :=
        ⟨device.logic.room t.first - (index + 1), by omega⟩
      have hnext : device.logic.room t.first - (index + 1) = room := by omega
      have hlength : index + (outputs.take room).length < device.logic.room t.first := by
        rw [List.length_take]
        omega
      obtain ⟨l₁, hfilled, hattach⟩ := attach_of_room hn h houtput hroom
      obtain ⟨l, hl, hall⟩ := ih (by rwa [Circuit.ids_modify]) (h.filled hfilled _) hdenotes
        (houtputs.imp fun _ _ hs => hs.attach hattach)
      rw [hfilled.room_eq, hnext] at hl hall
      have hkeep : t.connectedIssues l₁ (index + 1) (sources.take room) =
          t.connectedIssues device.logic (index + 1) (sources.take room) := by
        refine connectedIssues_congr fun i hle hlt => ?_
        rw [List.length_take] at hlt
        rw [Logic.driver?, Logic.driver?, hfilled.input?_behind h.first hle (by omega)]
      refine ⟨l, ?_, ?_⟩
      · rw [hleft, List.take_succ_cons]
        exact hfilled.cons h.first hlength hl
      · rw [hleft, List.take_succ_cons, List.getElem?_cons_succ, connectedIssues_cons,
          Draft.attachAll, hattach]
        simp only [hall, hkeep, Circuit.modify_modify, List.append_assoc]
        rfl
    · have hnone : device.logic.room t.first - index = 0 := by omega
      refine ⟨device.logic, ?_, ?_⟩
      · rw [hnone, List.take_zero]
        exact .nil _ _ _
      · rw [Draft.attachAll, attach_of_full h houtput (by omega), hnone,
          Circuit.modify_logic hn h.find]
        simp [Draft.report, Target.connectedIssues]

/-! ## Lines -/

/-- A signal that stands for an input is read as a target. -/
theorem readTarget_of_reads {more : List Symbol} (hp : c.Proper names)
    (hr : c.Reads (s.symbols ++ .mark .equal :: more) e)
    (hdeclared : names.idOf s.device ∈ d.declared)
    (hfind : d.circuit.find? (names.idOf s.device) = some device)
    (hrange : device.logic.InRange) (hstarts : s.Starts device.logic first) :
    ∃ r c₁, readTarget d c = .ok (⟨r, first, device.gateInputs⟩, c₁) ∧ r.Denotes names s ∧
      c.Covers r.words c₁ ∧ c₁.Proper names ∧ c₁.Reads more e := by
  obtain ⟨r, c₁, hread, hdenotes, hcovers, hp₁, hr₁⟩ :=
    readReference_of_reads hp hr (by decide) (by decide) hdeclared
  rw [← hdenotes.device] at hfind
  have hinput := input_of_starts hfind hrange hdenotes hstarts
  have hdevice : d.device r = .ok device := by rw [Draft.device, hfind]
  have hequal : c₁.isAt .equal = true := Cursor.isAt_iff.2 hr₁.current
  refine ⟨r, c₁.advance, ?_, hdenotes, hcovers, hp₁.advance, hr₁.advance⟩
  simp only [readTarget, hread, bind, Except.bind, hinput, hdevice, hequal, if_true]

/-- A connection line whose signals stand for something is read up to its end. Its sources are put
in place as far as there is room, and what cannot be is reported. -/
theorem readConnectionLine_of_reads {decl : ConnectionDecl} {outputs : List Terminal}
    (hp : c.Proper names) (hwell : d.circuit.WellFormed) (hr : c.Reads decl.symbols e)
    (hdeclared : names.idOf decl.target.device ∈ d.declared)
    (hfind : d.circuit.find? (names.idOf decl.target.device) = some device)
    (hstarts : decl.target.Starts device.logic first)
    (houtputs : List.Forall₂ (Signal.StandsFor names d) decl.sources outputs) :
    ∃ (target : Reference) (sources : List Reference) (l : Logic),
      let t : Target := ⟨target, first, device.gateInputs⟩
      let room := device.logic.room first
      c.Covers ((target :: sources).flatMap Reference.words) e ∧
      target.Denotes names decl.target ∧
      List.Forall₂ (Reference.Denotes names) sources decl.sources ∧
      device.logic.Filled first 0 (outputs.take room) l ∧
      readConnectionLine c d = (e, { d with
        circuit := d.circuit.modify (names.idOf decl.target.device) fun _ => l
        issues := d.issues ++ t.connectedIssues device.logic 0 (sources.take room) ++
          sources[room]?.toList.map t.unfitIssue }) := by
  have hrange : device.logic.InRange :=
    hwell.inRange device ((Circuit.find?_eq_some_iff hwell.nodup).1 hfind).1
  have hr : c.Reads (decl.target.symbols ++ .mark .equal ::
      (separated Signal.symbols decl.sources ++ [.mark .semicolon])) e := by
    simpa [ConnectionDecl.symbols] using hr
  obtain ⟨target, c₁, hread, htarget, hcovers, hp₁, hr₁⟩ :=
    readTarget_of_reads hp hr hdeclared hfind hrange hstarts
  have hboth : List.Forall₂ (fun s o => names.idOf s.device ∈ d.declared ∧ s.StandsFor names d o)
      decl.sources outputs :=
    houtputs.imp fun s o h => ⟨h.device ▸ h.declared, h⟩
  have hsource := ((List.forall₂_and_left _ _).1 hboth).1
  obtain ⟨sources, hsources, hcovers', hreads⟩ :=
    readSources_of_reads hp₁ decl.sources_ne_nil hr₁ hsource
  let t : Target := ⟨target, first, device.gateInputs⟩
  have hmeets : t.Meets d device := ⟨htarget.device ▸ hfind, rfl, hstarts.2⟩
  obtain ⟨l, hl, hall⟩ := attachAll_eq hwell.nodup hmeets hsources houtputs
  refine ⟨target, sources, l, ?_, htarget, hsources, hl, ?_⟩
  · exact hcovers.trans hcovers'
  · rw [readConnectionLine, hread]
    simp only
    rw [hreads t 0 d rfl, hall, ← htarget.device]
    rfl

/-- **What becomes of a connection line.** Take a text that is read onto a board, however that has
come about, and a place in the section of connections that reading comes to, at which there is a
connection line that is right by the grammar. Let its target stand for an input of a device, and each
of its sources for an output. The line is read up to its end, and what is reported of it is reported
of the text.

As many sources as there is room for go to consecutive inputs of the target, from the one that is
named on, or from the first one of a gate: an input that is open is driven by its source afterwards,
and one that has a driver keeps it, which is reported at the name of the source. If there are more
sources, the first one of these is reported, and none has an effect: for a gate at its last word, for
an input of a flip-flop at its name. That is all that is reported, and all that changes. -/
theorem readConnectionLine_of_comesOnto {passLimit limit left : Nat} {ops : List Operation}
    {source : String} {decl : ConnectionDecl} {outputs : List Terminal}
    (hcomes : ComesOnto (.ofOperations passLimit ops) limit source .conns (left + 1) c d)
    (hreads : c.Reads decl.symbols e) :
    let b := Board.ofOperations passLimit ops
    let names := (scan b.names source.toList).names
    let room := device.logic.room first
    names.idOf decl.target.device ∈ d.declared →
    d.circuit.find? (names.idOf decl.target.device) = some device →
    decl.target.Starts device.logic first →
    List.Forall₂ (Signal.StandsFor names d) decl.sources outputs →
    ∃ (line : List Token) (target : Reference) (sources : List Reference) (d' : Draft),
      c.ahead = line ++ e.ahead ∧
      line.filter Token.isName = (target :: sources).flatMap Reference.words ∧
      target.Denotes names decl.target ∧
      List.Forall₂ (Reference.Denotes names) sources decl.sources ∧
      readConnectionLine c d = (e, d') ∧ ComesOnto b limit source .conns left e d' ∧
      d'.issues <+: (draftOnto b limit source).issues ∧
      let t : Target := ⟨target, first, device.gateInputs⟩
      let connected := t.connectedIssues device.logic 0 (sources.take room)
      let unfit := sources[room]?.toList.map t.unfitIssue
      d' = { d with circuit := d'.circuit, issues := d.issues ++ connected ++ unfit } ∧
      (∀ i ∈ connected, i.fault.kind = .deviceError) ∧ (∀ i ∈ unfit, i.fault.kind = .invalidPin) ∧
      d.circuit.DiffersAt target.device (Logic.Filled first 0 (outputs.take room)) d'.circuit := by
  intro b names room hdeclared hfind hstarts houtputs
  have hb : b.WellFormed := (Board.wellFormed_empty passLimit).foldl_apply ops
  have hwell : d.circuit.WellFormed := (hcomes.leads_start.wellFormed hb.circuit hb.probes).1
  obtain ⟨target, sources, l, ⟨line, hline, hwords⟩, htarget, hsources, hl, hread⟩ :=
    readConnectionLine_of_reads hcomes.proper hwell hreads hdeclared hfind hstarts houtputs
  have hahead : c.ahead ≠ [] := hreads.ahead_ne_nil (by simp [ConnectionDecl.symbols])
  have hnext := hcomes.next hahead
  rw [readLine, hread] at hnext
  refine ⟨line, target, sources, _, hline, hwords, htarget, hsources, hread, hnext,
    hnext.leads.issues_isPrefix, rfl, ?_, ?_, ?_⟩
  · intro i hi
    obtain ⟨x, -, rfl⟩ := List.mem_map.1 hi
    rfl
  · intro i hi
    obtain ⟨x, -, rfl⟩ := List.mem_map.1 hi
    unfold Target.unfitIssue
    split <;> rfl
  · rw [← htarget.device] at hfind ⊢
    exact Circuit.differsAt_modify hwell.nodup hfind hl

/-- A gate with two inputs, of which one is connected, and then three sources for it. -/
def crowdedGate : String :=
  "[devices]\nA, B, C = SWITCH;\nG = AND(2);\n[conns]\nG.I2 = A;\nG = A, B, C;\n[monit]\n"

theorem crowdedGate_outcome :
    let b := Board.ofOperations 20 []
    let names := (scan b.names crowdedGate.toList).names
    let decl : ConnectionDecl :=
      ⟨⟨"G", none⟩, [⟨"A", none⟩, ⟨"B", none⟩, ⟨"C", none⟩], by decide⟩
    let l : Logic := .gate { kind := .and, inputs := [none, some ⟨names.idOf "A", .out⟩] }
    let outputs := ["A", "B", "C"].map fun name => (⟨names.idOf name, .out⟩ : Terminal)
    ∃ (c e : Cursor) (d d' : Draft) (target : Reference) (sources : List Reference),
      ComesOnto b 10 crowdedGate .conns 9 c d ∧ c.Reads decl.symbols e ∧
      d.circuit.find? (names.idOf "G") = some ⟨names.idOf "G", l⟩ ∧
      List.Forall₂ (Signal.StandsFor names d) decl.sources outputs ∧
      readConnectionLine c d = (e, d') ∧
      (let t : Target := ⟨target, .gate 1, 2⟩
      d'.issues = d.issues ++ t.connectedIssues l 0 (sources.take 2) ++
        sources[2]?.toList.map t.unfitIssue) ∧
      d.circuit.DiffersAt target.device (Logic.Filled (.gate 1) 0 (outputs.take 2)) d'.circuit := by
  intro b names decl l outputs
  have hbefore : (chunks (scan b.names crowdedGate.toList).finish
      (scan b.names crowdedGate.toList).tokens).1 = [] := by decide +kernel
  have hlength : (chunks (scan b.names crowdedGate.toList).finish
      (scan b.names crowdedGate.toList).tokens).2.length = 3 := by decide +kernel
  have hfacts : ∀ chunk ∈ (chunks (scan b.names crowdedGate.toList).finish
      (scan b.names crowdedGate.toList).tokens).2[0]?,
      ∀ chunk' ∈ (chunks (scan b.names crowdedGate.toList).finish
        (scan b.names crowdedGate.toList).tokens).2[1]?,
      chunk.heading? = some .devices ∧ chunk.closed = true ∧
      chunk'.heading? = some .conns ∧ chunk'.closed = true ∧ chunk'.lines.ahead ≠ [] ∧
      ∀ x ∈ [readLine .conns chunk'.lines (readLines .devices 10 10 chunk.lines (startOn b))],
        x.1.ahead.map Token.symbol? = (decl.symbols ++ []).map some ∧
        names.idOf "G" ∈ x.2.declared ∧
        x.2.circuit.find? (names.idOf "G") = some ⟨names.idOf "G", l⟩ ∧
        ∀ t ∈ outputs, t.device ∈ x.2.declared ∧ x.2.circuit.hasTerminal t = true := by
    decide +kernel
  obtain ⟨chunk, chunk', third, hchunks⟩ := List.length_eq_three.1 hlength
  obtain ⟨hheading, hclosed, hheading', hclosed', hahead, hline⟩ :=
    hfacts chunk (by rw [hchunks]; rfl) chunk' (by rw [hchunks]; rfl)
  obtain ⟨hspelled, hdeclared, hfind, hterminals⟩ := hline _ (List.mem_singleton_self _)
  have hconns : ComesOnto b 10 crowdedGate .conns 10 chunk'.lines
      (readLines .devices 10 10 chunk.lines (startOn b)) :=
    .second (by rw [← hbefore, ← hchunks]) hheading hclosed hheading' hclosed'
  have hcomes := hconns.next hahead
  set d := (readLine .conns chunk'.lines (readLines .devices 10 10 chunk.lines (startOn b))).2
  obtain ⟨e, hreads, -⟩ := Cursor.exists_reads_of_spelled hspelled
  have hsource : ∀ name, (⟨names.idOf name, .out⟩ : Terminal) ∈ outputs →
      Signal.StandsFor names d ⟨name, none⟩ ⟨names.idOf name, .out⟩ := by
    intro name hname
    obtain ⟨hdeclared, houtput⟩ := hterminals _ hname
    exact ⟨rfl, hdeclared, houtput, rfl⟩
  have houtputs : List.Forall₂ (Signal.StandsFor names d) decl.sources outputs :=
    .cons (hsource "A" (by simp [outputs])) (.cons (hsource "B" (by simp [outputs]))
      (.cons (hsource "C" (by simp [outputs])) .nil))
  obtain ⟨-, target, sources, d', -, -, -, -, hread, -, -, hd', -, -, hdiffers⟩ :=
    readConnectionLine_of_comesOnto hcomes hreads hdeclared hfind ⟨.inr ⟨rfl, rfl⟩, rfl⟩ houtputs
  refine ⟨_, e, d, d', target, sources, hcomes, hreads, hfind, houtputs, hread, ?_, hdiffers⟩
  rw [hd']
  rfl

example : (readOnto (.empty 20) 10 crowdedGate).diagnostics.map (fun d => (d.kind, d.position)) =
    [(.deviceError, ⟨5, 7⟩), (.invalidPin, ⟨5, 10⟩)] := by
  decide +kernel

end Breadboard.Definition
