import Breadboard.Proofs.Definition.DeviceLines
import Breadboard.Proofs.Definition.Filling
import Breadboard.Proofs.Definition.References

/-!
# Connection lines

The reader of connection lines and the grammar agree. Read without issues, a line is one that the
grammar derives, with a target that has room for its sources, outputs for sources and free inputs,
and the draft has its wires afterwards; and each such line is read that way.

* `readConnectionLine_sound`, `readConnectionLine_complete`: the two directions.
-/
namespace Breadboard.Definition

variable {names : NameTable} {passLimit : Nat} {c c' e : Cursor} {d' : Draft} {k : Layout}
  {t : Target} {p : Part} {s : Signal}

/-! ## Targets -/

/-- The target is what becomes of a signal that names an input of a part. -/
structure Target.Aims (names : NameTable) (t : Target) (p : Part) (s : Signal) : Prop where
  name : p.name = s.device
  reference : t.reference.Denotes names s
  starts : s.Starts p.logic t.first
  inputs : t.inputs = (Device.mk t.reference.device p.logic).gateInputs

theorem gateInputs_wired (id : NameId) (l : Logic) (driver? : InputPin → Option Terminal) :
    (Device.mk id (l.wired driver?)).gateInputs = (Device.mk id l).gateInputs := by
  cases l <;> simp [Logic.wired, Device.gateInputs]

theorem readTarget_sound (hp : c.Proper names) (hk : k.Sound names)
    (h : readTarget (k.draft names passLimit) c = .ok (t, c')) :
    ∃ s : Signal, ∃ p ∈ k.parts, t.Aims names p s ∧ c.Reads (s.symbols ++ [.mark .equal]) c' := by
  simp only [readTarget, bind, Except.bind] at h
  split at h
  · cases h
  rename_i x hread
  obtain ⟨r, c₁⟩ := x
  obtain ⟨s, p, hpart, hname, hdenotes, hreads⟩ := readReference_draft_sound hp hk hread
  split at h
  · cases h
  rename_i first hinput
  split at h
  · cases h
  rename_i device hdevice
  rw [device_draft passLimit hk hpart hname hdenotes] at hdevice
  split at h
  · rename_i hequal
    cases h
    obtain rfl := Except.ok.inj hdevice
    have hstarts := (input_draft_iff passLimit hk hpart hname hdenotes).1 hinput
    refine ⟨s, p, hpart, ⟨hname, hdenotes, hstarts, gateInputs_wired _ _ _⟩, hreads.trans ?_⟩
    exact .cons (hp.of_reads hreads) (Cursor.isAt_iff.1 hequal) (by decide) (.refl _)
  · cases h

theorem readTarget_complete (passLimit : Nat) {first : InputPin} (hp : c.Proper names)
    (hk : k.Sound names) (hpart : p ∈ k.parts) (hname : p.name = s.device)
    (hstarts : s.Starts p.logic first) (hr : c.Reads (s.symbols ++ [.mark .equal]) e) :
    ∃ t, readTarget (k.draft names passLimit) c = .ok (t, e) ∧ t.Aims names p s ∧
      t.first = first := by
  obtain ⟨c₁, hsignal, hr₁⟩ := hr.split
  obtain ⟨r, hread, hdenotes⟩ := readReference_draft_complete passLimit hp hsignal
    (s.endsAt_of_mark (by decide) hr₁.current) hpart hname
  have hinput := (input_draft_iff passLimit hk hpart hname hdenotes).2 hstarts
  have hdevice := device_draft passLimit hk hpart hname hdenotes
  have hequal : c₁.isAt .equal = true := Cursor.isAt_iff.2 hr₁.current
  obtain rfl := hr₁.advance.eq
  let device : Device := ⟨names.idOf p.name, p.logic.wired (k.driver? names p.name)⟩
  refine ⟨⟨r, first, device.gateInputs⟩, ?_,
    ⟨hname, hdenotes, hstarts, gateInputs_wired _ _ _⟩, rfl⟩
  simp only [readTarget, hread, bind, Except.bind, hinput, hdevice, hequal, if_true, device]

/-! ## Sources -/

/-- Reports a source for which no input is left. -/
def Target.unfitIssue (t : Target) (source : Reference) : Issue :=
  match t.first with
  | .gate _ => (Fault.tooManySources t.reference.name.text t.inputs).on source.last
  | pin => (Fault.singleSource t.reference.name.text pin).on source.name

/-- There is an input for a source as long as there is room. -/
theorem target_pin_eq {id : NameId} {l : Logic} (hinputs : t.inputs = (Device.mk id l).gateInputs)
    (hfirst : (l.input? t.first).isSome) (index : Nat) (source : Reference) :
    t.pin index source =
      if index < l.room t.first then .ok (t.first.plus index)
      else .error (t.unfitIssue source) := by
  unfold Target.pin Target.unfitIssue
  cases l with
  | gate g =>
    cases ht : t.first with
    | gate n =>
      have hroom : n + index ≤ t.inputs ↔ index < (Logic.gate g).room (.gate n) := by
        have hcount : t.inputs = g.inputs.length := hinputs
        rw [Logic.room]
        omega
      simp only [hroom, InputPin.plus]
    | clk | data | set | clear =>
      rw [ht] at hfirst
      cases hfirst
  | dtype ff =>
    cases ht : t.first with
    | gate n =>
      rw [ht] at hfirst
      cases hfirst
    | clk | data | set | clear => simp only [Logic.room, Nat.lt_one_iff, InputPin.plus]
  | switch | clock => cases hfirst

/-- A source has an input if the part takes as many sources as there are up to it. -/
theorem target_pin_iff {index : Nat} {source : Reference} {pin : InputPin} (ht : t.Aims names p s) :
    t.pin index source = .ok pin ↔
      p.logic.Takes t.first (index + 1) ∧ pin = t.first.plus index := by
  have hfirst : (p.logic.input? t.first).isSome := ht.starts.2
  rw [target_pin_eq ht.inputs hfirst, Logic.takes_iff_lt_room hfirst]
  split
  · rename_i hroom
    rw [Except.ok.injEq]
    exact ⟨fun h => ⟨hroom, h.symm⟩, fun h => h.2.symm⟩
  · rename_i hroom
    simp only [reduceCtorEq, hroom, false_and]

section
variable {source : Reference} {index : Nat} {q : Part} {s' : Signal}

/-- The circuit in which a source has been connected, unless its input is driven. -/
theorem connect_draft (passLimit : Nat) (hk : k.Sound names) (hp : p ∈ k.parts)
    (ht : t.Aims names p s) (hs' : s'.IsOutput k.parts)
    (htakes : p.logic.Takes t.first (index + 1)) :
    (k.draft names passLimit).circuit.connect (Layout.terminal names s') t.reference.device
        (t.first.plus index) =
      if (k.driver? names s.device (t.first.plus index)).isSome then
        .error (.inputConnected t.reference.device (t.first.plus index))
      else .ok ((k.addWire ⟨s.device, t.first.plus index, s'⟩).circuit names passLimit) := by
  obtain ⟨q, hq, hqname, hqoutput, -⟩ := hs'.output_mem
  rw [ht.reference.device]
  exact Layout.connect_circuit (w := ⟨s.device, t.first.plus index, s'⟩) passLimit hk hp hq ht.name
    hqname hqoutput (htakes.isSome_input? (Nat.lt_succ_self index))

/-- A source that is attached without an issue is a wire more. -/
theorem attach_sound (hk : k.Sound names) (hp : p ∈ k.parts) (ht : t.Aims names p s)
    (hq : q ∈ k.parts) (hname : q.name = s'.device) (hs' : source.Denotes names s')
    (h : (k.draft names passLimit).attach t index source = .ok d') (hissues : d'.issues = []) :
    s'.IsOutput k.parts ∧ p.logic.Takes t.first (index + 1) ∧
      (k.addWire ⟨s.device, t.first.plus index, s'⟩).Sound names ∧
      d' = (k.addWire ⟨s.device, t.first.plus index, s'⟩).draft names passLimit := by
  simp only [Draft.attach, bind, Except.bind] at h
  split at h
  · cases h
  rename_i output houtput
  obtain ⟨hisOutput, rfl⟩ := (output_draft_iff passLimit hk hq hname hs').1 houtput
  split at h
  · cases h
  rename_i pin hpin
  obtain ⟨htakes, rfl⟩ := (target_pin_iff ht).1 hpin
  rw [connect_draft passLimit hk hp ht hisOutput htakes] at h
  cases hfree : k.driver? names s.device (t.first.plus index) with
  | some driver =>
    rw [hfree, if_pos (Option.isSome_some)] at h
    cases h
    exact absurd hissues (Draft.report_issues_ne_nil _ _)
  | none =>
    rw [hfree, if_neg (by simp)] at h
    cases h
    exact ⟨hisOutput, htakes, hk.addWire (List.mem_map.2 ⟨p, hp, ht.name⟩) hfree, rfl⟩

theorem attach_complete (passLimit : Nat) (hk : k.Sound names) (hp : p ∈ k.parts)
    (ht : t.Aims names p s) (hs' : source.Denotes names s') (hisOutput : s'.IsOutput k.parts)
    (htakes : p.logic.Takes t.first (index + 1))
    (hfree : k.driver? names s.device (t.first.plus index) = none) :
    (k.addWire ⟨s.device, t.first.plus index, s'⟩).Sound names ∧
      (k.draft names passLimit).attach t index source =
        .ok ((k.addWire ⟨s.device, t.first.plus index, s'⟩).draft names passLimit) := by
  obtain ⟨q, hq, hname, -⟩ := hisOutput.output_mem
  have houtput := (output_draft_iff passLimit hk hq hname hs').2 ⟨hisOutput, rfl⟩
  have hpin : t.pin index source = .ok (t.first.plus index) := (target_pin_iff ht).2 ⟨htakes, rfl⟩
  have hconnect := connect_draft passLimit hk hp ht hisOutput htakes
  rw [hfree, if_neg (by simp)] at hconnect
  refine ⟨hk.addWire (List.mem_map.2 ⟨p, hp, ht.name⟩) hfree, ?_⟩
  simp only [Draft.attach, bind, Except.bind, houtput, hpin, hconnect]
  rfl

theorem readSources_eq {d : Draft} (h : readReference d.declared c = .ok (source, c')) :
    readSources t index c d =
      match d.attach t index source with
      | .error issue => d.abandonLine c' issue
      | .ok d =>
        if c'.isAt .comma then readSources t (index + 1) c'.advance d
        else d.endLine c' := by
  rw [readSources]
  split
  · rename_i hread
    rw [h] at hread
    cases hread
  · rename_i hread
    rw [h] at hread
    obtain ⟨rfl, rfl⟩ := Prod.mk.inj (Except.ok.inj hread)
    rfl

end

/-- Sources that are read without an issue are outputs with room at free inputs. -/
theorem readSources_sound {index : Nat} {d : Draft} (hp : c.Proper names) (hk : k.Sound names)
    (hd : d = k.draft names passLimit) (hpart : p ∈ k.parts) (ht : t.Aims names p s)
    (h : readSources t index c d = (c', d')) (hissues : d'.issues = []) :
    ∃ sources : List Signal, sources ≠ [] ∧
      c.Reads (separated Signal.symbols sources ++ [.mark .semicolon]) c' ∧
      (∀ s' ∈ sources, s'.IsOutput k.parts) ∧ p.logic.Takes t.first (index + sources.length) ∧
      (k.addWires (wiresFrom s.device t.first index sources)).Sound names ∧
      d' = (k.addWires (wiresFrom s.device t.first index sources)).draft names passLimit := by
  fun_induction readSources t index c d generalizing k with
  | case1 =>
    obtain ⟨-, rfl⟩ := Prod.mk.inj h
    exact absurd hissues (Draft.report_issues_ne_nil _ _)
  | case2 =>
    obtain ⟨-, rfl⟩ := Prod.mk.inj h
    exact absurd hissues (Draft.report_issues_ne_nil _ _)
  | case3 index c d source c₁ hread d₁ hattach hcomma ih =>
    subst hd
    obtain ⟨s', q, hq, hqname, hdenotes, hreads⟩ := readReference_draft_sound hp hk hread
    have hd₁ : d₁.issues = [] := by
      have hleads := leads_readSources t (index + 1) c₁.advance d₁
      rw [h] at hleads
      exact hleads.issues_eq_nil hissues
    obtain ⟨houtput, -, hk₁, hd₁⟩ := attach_sound hk hpart ht hq hqname hdenotes hattach hd₁
    have hp₁ := hp.of_reads hreads
    obtain ⟨sources, hne, hsources, houtputs, htakes', hsound, rfl⟩ :=
      ih hp₁.advance hk₁ hd₁ hpart h
    refine ⟨s' :: sources, List.cons_ne_nil _ _, ?_, ?_, ?_, ?_, ?_⟩
    · rw [separated_cons hne, List.append_assoc]
      exact hreads.trans (.cons hp₁ (Cursor.isAt_iff.1 hcomma) (by decide) hsources)
    · exact List.forall_mem_cons.2 ⟨houtput, houtputs⟩
    · rw [List.length_cons, show index + (sources.length + 1) = index + 1 + sources.length by omega]
      exact htakes'
    · rwa [Layout.addWires_addWire] at hsound
    · rw [Layout.addWires_addWire]
      rfl
  | case4 index c d source c₁ hread d₁ hattach hcomma =>
    subst hd
    obtain ⟨s', q, hq, hqname, hdenotes, hreads⟩ := readReference_draft_sound hp hk hread
    have hp₁ := hp.of_reads hreads
    obtain ⟨hend, rfl⟩ := Draft.endLine_sound hp₁ h hissues
    obtain ⟨houtput, htakes, hk₁, rfl⟩ :=
      attach_sound hk hpart ht hq hqname hdenotes hattach hissues
    exact ⟨[s'], List.cons_ne_nil _ _, hreads.trans hend, by simpa using houtput, htakes, hk₁, rfl⟩

theorem wiresFrom_concat (target : String) (first : InputPin) (index : Nat) (init : List Signal)
    (last : Signal) :
    wiresFrom target first index (init ++ [last]) =
      wiresFrom target first index init ++ [⟨target, first.plus (index + init.length), last⟩] := by
  induction init generalizing index with
  | nil => rfl
  | cons s init ih =>
    simp [wiresFrom, ih, Nat.add_assoc, Nat.add_comm 1]

/-- Sources with a comma behind each of them become wires, and reading goes on with the next one. -/
theorem readSources_init (passLimit : Nat) {init : List Signal} {index : Nat}
    (hp : c.Proper names) (hk : k.Sound names) (hpart : p ∈ k.parts) (ht : t.Aims names p s)
    (hr : c.Reads (init.flatMap fun s' => s'.symbols ++ [.mark .comma]) e)
    (houtputs : ∀ s' ∈ init, s'.IsOutput k.parts)
    (htakes : p.logic.Takes t.first (index + init.length + 1))
    (hnodup : ((k.wires ++ wiresFrom s.device t.first index init).map Wire.place).Nodup) :
    (k.addWires (wiresFrom s.device t.first index init)).Sound names ∧
      readSources t index c (k.draft names passLimit) =
        readSources t (index + init.length) e
          ((k.addWires (wiresFrom s.device t.first index init)).draft names passLimit) := by
  induction init generalizing index c k with
  | nil =>
    obtain rfl := hr.eq
    have hnone : k.addWires (wiresFrom s.device t.first index []) = k := by
      simp [Layout.addWires, wiresFrom]
    rw [hnone]
    exact ⟨hk, rfl⟩
  | cons s' init ih =>
    obtain ⟨houtput, houtputs⟩ := List.forall_mem_cons.1 houtputs
    rw [List.length_cons, ← Nat.add_assoc, Nat.add_right_comm index] at htakes
    have hroom : p.logic.Takes t.first (index + 1) := htakes.of_le (by omega) (by omega)
    have hfree : k.driver? names s.device (t.first.plus index) = none := by
      rw [Layout.driver?_eq_none_iff]
      rw [List.map_append, List.nodup_append'] at hnodup
      exact fun hmem => hnodup.2.2 hmem List.mem_cons_self
    obtain ⟨q, hq, hqname, -⟩ := houtput.output_mem
    rw [List.flatMap_cons, List.append_assoc] at hr
    obtain ⟨c₁, hsignal, hr₁⟩ := hr.split
    obtain ⟨r, hread, hdenotes⟩ := readReference_draft_complete passLimit hp hsignal
      (s'.endsAt_of_mark (by decide) hr₁.current) hq hqname
    have hcomma : c₁.isAt .comma = true := Cursor.isAt_iff.2 hr₁.current
    obtain ⟨hk₁, hattach⟩ := attach_complete passLimit hk hpart ht hdenotes houtput hroom hfree
    obtain ⟨hsound, hrest⟩ := ih (hp.of_reads hsignal).advance hk₁ hpart hr₁.advance houtputs
      htakes (by simpa [Layout.addWire, wiresFrom] using hnodup)
    rw [Layout.addWires_addWire] at hsound hrest
    refine ⟨hsound, ?_⟩
    rw [readSources_eq hread, hattach]
    simp only [hcomma, if_true]
    rw [hrest, List.length_cons, Nat.add_right_comm, Nat.add_assoc]
    rfl

/-- The last source becomes a wire, and the line comes to its end. -/
theorem readSources_last (passLimit : Nat) {last : Signal} {index : Nat} (hp : c.Proper names)
    (hk : k.Sound names) (hpart : p ∈ k.parts) (ht : t.Aims names p s)
    (hr : c.Reads last.symbols e) (hend : last.EndsAt e) (hcomma : e.isAt .comma = false)
    (houtput : last.IsOutput k.parts) (htakes : p.logic.Takes t.first (index + 1))
    (hnodup : ((k.wires ++ [(⟨s.device, t.first.plus index, last⟩ : Wire)]).map Wire.place).Nodup) :
    readSources t index c (k.draft names passLimit) =
      ((k.addWire ⟨s.device, t.first.plus index, last⟩).draft names passLimit).endLine e := by
  have hfree : k.driver? names s.device (t.first.plus index) = none := by
    rw [Layout.driver?_eq_none_iff]
    rw [List.map_append, List.nodup_append'] at hnodup
    exact fun hmem => hnodup.2.2 hmem List.mem_cons_self
  obtain ⟨q, hq, hqname, -⟩ := houtput.output_mem
  obtain ⟨r, hread, hdenotes⟩ := readReference_draft_complete passLimit hp hr hend hq hqname
  obtain ⟨-, hattach⟩ := attach_complete passLimit hk hpart ht hdenotes houtput htakes hfree
  rw [readSources_eq hread, hattach]
  simp only [hcomma, Bool.false_eq_true, if_false]

theorem readSources_error {index : Nat} {d : Draft} {issue : Issue}
    (h : readReference d.declared c = .error issue) :
    readSources t index c d = d.abandonLine c issue := by
  rw [readSources]
  split
  · rename_i hread
    rw [h] at hread
    cases hread
    rfl
  · rename_i hread
    rw [h] at hread
    cases hread

/-! ## Lines -/

/-- The symbols of the line before its semicolon. -/
def ConnectionDecl.content (decl : ConnectionDecl) : List Symbol :=
  decl.target.symbols ++ .mark .equal :: separated Signal.symbols decl.sources

/-- The line may come after lines that declare a given layout. -/
structure ConnectionDecl.Valid (k : Layout) (decl : ConnectionDecl) : Prop where
  fits : decl.Fits k.parts
  sources : ∀ s ∈ decl.sources, s.IsOutput k.parts
  nodup : ((k.wires ++ decl.wires).map Wire.place).Nodup

/-- The wires of a line whose target starts at a given input. -/
theorem ConnectionDecl.wires_eq {decl : ConnectionDecl} {first : InputPin} (hk : k.Sound names)
    (hpart : p ∈ k.parts) (hstarts : decl.target.Starts p.logic first) :
    decl.wires = wiresFrom decl.target.device first 0 decl.sources := by
  rw [wires, hstarts.input_eq (hk.fresh p hpart)]

theorem readConnectionLine_sound (hp : c.Proper names) (hk : k.Sound names)
    (h : readConnectionLine c (k.draft names passLimit) = (c', d')) (hissues : d'.issues = []) :
    ∃ decl : ConnectionDecl, decl.Valid k ∧ c.Reads decl.symbols c' ∧
      d' = (k.addWires decl.wires).draft names passLimit := by
  unfold readConnectionLine at h
  split at h
  · obtain ⟨-, rfl⟩ := Prod.mk.inj h
    exact absurd hissues (Draft.report_issues_ne_nil _ _)
  rename_i t c₁ hread
  obtain ⟨s, p, hpart, haims, hreads⟩ := readTarget_sound hp hk hread
  obtain ⟨sources, hne, hsources, houtputs, htakes, hsound, rfl⟩ :=
    readSources_sound (hp.of_reads hreads) hk rfl hpart haims h hissues
  rw [Nat.zero_add] at htakes
  let decl : ConnectionDecl := ⟨s, sources, hne⟩
  have hwires : decl.wires = wiresFrom s.device t.first 0 sources :=
    decl.wires_eq hk hpart haims.starts
  refine ⟨decl, ⟨?_, houtputs, ?_⟩, ?_, by rw [hwires]⟩
  · exact ⟨p, hpart, haims.name, t.first, haims.starts.1, htakes⟩
  · rw [hwires]
    exact hsound.nodup_places
  · simpa only [ConnectionDecl.symbols, List.append_assoc, List.cons_append, List.nil_append]
      using hreads.trans hsources

/-- A line that may come next is read up to its last source. -/
theorem readConnectionLine_last (passLimit : Nat) {decl : ConnectionDecl} {init : List Signal}
    {last : Signal} (hp : c.Proper names) (hk : k.Sound names) (hr : c.Reads decl.content e)
    (hvalid : decl.Valid k) (hsources : decl.sources = init ++ [last]) :
    ∃ p ∈ k.parts, ∃ (t : Target) (c₁ : Cursor),
      let k₁ := k.addWires decl.wires.dropLast
      t.Aims names p decl.target ∧ c₁.Proper names ∧ c₁.Reads last.symbols e ∧
        p.logic.Takes t.first (init.length + 1) ∧ k₁.Sound names ∧
        decl.wires = decl.wires.dropLast ++ [⟨decl.target.device, t.first.plus init.length, last⟩] ∧
        readConnectionLine c (k.draft names passLimit) =
          readSources t init.length c₁ (k₁.draft names passLimit) := by
  obtain ⟨⟨p, hpart, hname, first, hpin, htakes⟩, houtputs, hnodup⟩ := hvalid
  have hpos : 0 < decl.sources.length := List.length_pos_iff.2 decl.sources_ne_nil
  -- a part that takes sources from an input on has that input
  have hstarts : decl.target.Starts p.logic first := by
    refine ⟨hpin, ?_⟩
    have hinput := htakes.isSome_input? hpos
    cases first <;> exact hinput
  have hwires : decl.wires = wiresFrom decl.target.device first 0 init ++
      [⟨decl.target.device, first.plus init.length, last⟩] := by
    rw [decl.wires_eq hk hpart hstarts, hsources, wiresFrom_concat, Nat.zero_add]
  have hdrop : decl.wires.dropLast = wiresFrom decl.target.device first 0 init := by
    rw [hwires, List.dropLast_concat]
  rw [hsources, List.length_append, List.length_singleton] at htakes
  rw [hsources] at houtputs
  rw [hwires, ← List.append_assoc, List.map_append] at hnodup
  have hr' : c.Reads ((decl.target.symbols ++ [.mark .equal]) ++
      ((init.flatMap fun s' => s'.symbols ++ [.mark .comma]) ++ last.symbols)) e := by
    rw [← separated_concat, ← hsources]
    simpa [ConnectionDecl.content] using hr
  obtain ⟨c₁, htarget, hrest⟩ := hr'.split
  obtain ⟨c₂, hinit, hlast⟩ := hrest.split
  obtain ⟨t, hread, haims, rfl⟩ := readTarget_complete passLimit hp hk hpart hname hstarts htarget
  have hp₁ := hp.of_reads htarget
  obtain ⟨hsound, hread'⟩ := readSources_init passLimit hp₁ hk hpart haims hinit
    (fun s' hs' => houtputs s' (List.mem_append_left _ hs')) (by rwa [Nat.zero_add])
    (List.nodup_append'.1 hnodup).1
  rw [Nat.zero_add] at hread'
  refine ⟨p, hpart, t, c₂, haims, hp₁.of_reads hinit, hlast, htakes, ?_, ?_, ?_⟩
  · rwa [hdrop]
  · rwa [hdrop]
  · simp only [readConnectionLine, hread]
    rw [hread', hdrop]

theorem readConnectionLine_complete (passLimit : Nat) {decl : ConnectionDecl}
    (hp : c.Proper names) (hk : k.Sound names) (hr : c.Reads decl.content e)
    (hend : ∀ s ∈ decl.sources.getLast?, s.EndsAt e) (hcomma : e.isAt .comma = false)
    (hvalid : decl.Valid k) :
    readConnectionLine c (k.draft names passLimit) =
      ((k.addWires decl.wires).draft names passLimit).endLine e := by
  obtain ⟨init, last, hsources⟩ :=
    (List.eq_nil_or_concat' decl.sources).resolve_left decl.sources_ne_nil
  obtain ⟨p, hpart, t, c₁, haims, hp₁, hlast, htakes, hsound, hwires, hread⟩ :=
    readConnectionLine_last passLimit hp hk hr hvalid hsources
  have houtput : last.IsOutput k.parts := hvalid.sources last (by simp [hsources])
  have hnodup := hvalid.nodup
  rw [hwires, ← List.append_assoc] at hnodup
  rw [hread, readSources_last passLimit hp₁ hsound hpart haims hlast
    (hend last (by simp [hsources])) hcomma houtput htakes hnodup]
  conv_rhs => rw [hwires]
  simp only [Layout.addWire, Layout.addWires, List.append_assoc]

/-- A line that ends in a bare name, with another name behind it, loses its last source. -/
theorem readConnectionLine_runOn (passLimit : Nat) {decl : ConnectionDecl} {last : Signal}
    {id : NameId} (hp : c.Proper names) (hk : k.Sound names) (hr : c.Reads decl.content e)
    (hlast : decl.sources.getLast? = some last) (hpin : last.pin = none)
    (hnext : e.current.kind = .name id) (hvalid : decl.Valid k) :
    ∃ c₁ : Cursor, c₁.Reads last.symbols e ∧
      (k.addWires decl.wires.dropLast).Sound names ∧
      readConnectionLine c (k.draft names passLimit) =
        ((k.addWires decl.wires.dropLast).draft names passLimit).abandonLine c₁
          ((Fault.missingDot last.device e.current.text).on e.current) := by
  obtain ⟨init, hsources⟩ := List.getLast?_eq_some_iff.1 hlast
  obtain ⟨p, hpart, t, c₁, haims, hp₁, hlast, htakes, hsound, hwires, hread⟩ :=
    readConnectionLine_last passLimit hp hk hr hvalid hsources
  obtain ⟨q, hq, hqname, -⟩ := hvalid.sources last (by simp [hsources])
  refine ⟨c₁, hlast, hsound, ?_⟩
  rw [hread, readSources_error]
  exact readReference_runOn hp₁ hlast hpin hnext (hqname ▸ List.mem_map_of_mem hq)

end Breadboard.Definition
