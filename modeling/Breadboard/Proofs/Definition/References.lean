import Breadboard.Proofs.Definition.Layout
import Breadboard.Proofs.Definition.Reads

/-!
# References

What a reference is read from, and what it stands for in the draft of a layout.

* `readReference_sound`, `readReference_complete`: references are read from signals whose device
  is declared.
* `output_draft_iff`, `input_draft_iff`: a reference stands for an output or an input if its signal
  names one.
-/
namespace Breadboard.Definition

variable {names : NameTable} {c c' e : Cursor} {r : Reference}

/-- The reference is what becomes of a signal. -/
structure Reference.Denotes (names : NameTable) (r : Reference) (s : Signal) : Prop where
  device : r.device = names.idOf s.device
  pin : r.pin.map (·.text) = s.pin

theorem readPin_sound {device : NameId} {name : Token} (hp : c.Proper names)
    (h : readPin device name c = .ok (r, c')) :
    r.device = device ∧
      c.Reads (match r.pin with
        | some pin => [.mark .dot, .name pin.text]
        | none => []) c' := by
  simp only [readPin] at h
  split at h
  · rename_i hdot
    split at h
    · rename_i id hname
      cases h
      refine ⟨rfl, .cons hp (Token.symbol?_eq_mark_iff.2 hdot) (by decide)
        (.cons hp.advance ?_ (by simp) (.refl _))⟩
      exact Token.symbol?_eq_name_iff.2 ⟨⟨id, hname⟩, rfl⟩
    · cases h
    · cases h
  · cases h
  · cases h
    exact ⟨rfl, .refl c⟩

/-- What is read as a reference is a signal with a declared device. -/
theorem readReference_sound {declared : List NameId} (hp : c.Proper names)
    (h : readReference declared c = .ok (r, c')) :
    ∃ s : Signal, r.Denotes names s ∧ names.idOf s.device ∈ declared ∧ c.Reads s.symbols c' := by
  unfold readReference at h
  split at h
  · cases h
  rename_i t rest hc
  split at h
  · rename_i id hkind
    split at h
    · rename_i hdeclared
      obtain ⟨hdevice, hreads⟩ := readPin_sound hp.advance h
      have hid : names.idOf t.text = id := (hp.numbered t (hc ▸ List.mem_cons_self)).idOf_eq hkind
      refine ⟨⟨t.text, r.pin.map (·.text)⟩, ⟨hdevice.trans hid.symm, rfl⟩, ?_, ?_⟩
      · rw [hid]
        exact List.contains_iff_mem.1 hdeclared
      · have hsymbol : c.current.symbol? = some (.name t.text) := by
          rw [Cursor.current_cons hc]
          exact Token.symbol?_eq_name_iff.2 ⟨⟨id, hkind⟩, rfl⟩
        refine .cons hp hsymbol (by simp) ?_
        cases hpin : r.pin <;> simpa [hpin] using hreads
    · cases h
  · cases h
  · cases h

/-- A signal that has been read up to a cursor is not continued there. -/
def Signal.EndsAt (s : Signal) (e : Cursor) : Prop :=
  s.pin = none → e.current.kind ≠ .mark .dot ∧ ∀ id, e.current.kind ≠ .name id

theorem Signal.endsAt_of_mark {m : Mark} (s : Signal) (hm : m ≠ .dot)
    (h : e.current.symbol? = some (.mark m)) : s.EndsAt e := by
  have hkind : e.current.kind = .mark m := Token.symbol?_eq_mark_iff.1 h
  exact fun _ => by simp [hkind, hm]

/-- A signal with a declared device is read as a reference, if it is not continued. -/
theorem readReference_complete {declared : List NameId} {s : Signal} (hp : c.Proper names)
    (hr : c.Reads s.symbols e) (hend : s.EndsAt e) (hdeclared : names.idOf s.device ∈ declared) :
    ∃ r, readReference declared c = .ok (r, e) ∧ r.Denotes names s := by
  obtain ⟨t, rest, hc, ht, hadvance⟩ := hr.cons_ahead
  obtain ⟨⟨id, hkind⟩, htext⟩ := Token.symbol?_eq_name_iff.1 ht
  have hid : names.idOf s.device = id := by
    rw [← htext]
    exact (hp.numbered t (hc ▸ List.mem_cons_self)).idOf_eq hkind
  have hcontains : declared.contains id = true := List.contains_iff_mem.2 (hid ▸ hdeclared)
  have hread : readReference declared c = readPin id t c.advance := by
    rw [readReference, hc]
    simp only [hkind, hcontains, if_true]
  rw [hread]
  cases hpin : s.pin with
  | none =>
    rw [hpin] at hadvance
    obtain rfl := hadvance.eq
    obtain ⟨hdot, hname⟩ := hend hpin
    refine ⟨⟨id, t, none⟩, ?_, ⟨hid.symm, hpin.symm⟩⟩
    simp only [readPin]
  | some pin =>
    rw [hpin] at hadvance
    have hdot : c.advance.current.kind = .mark .dot :=
      Token.symbol?_eq_mark_iff.1 hadvance.current
    obtain ⟨⟨pinId, hname⟩, hpinText⟩ := Token.symbol?_eq_name_iff.1 hadvance.advance.current
    obtain rfl := hadvance.advance.advance.eq
    refine ⟨⟨id, t, some c.advance.advance.current⟩, ?_, ⟨hid.symm, ?_⟩⟩
    · simp only [readPin, hdot, hname]
    · rw [Option.map_some, hpinText, hpin]

/-- A bare name before another name is taken for a device whose pin has lost its dot. -/
theorem readReference_runOn {declared : List NameId} {s : Signal} {id : NameId}
    (hp : c.Proper names) (hr : c.Reads s.symbols e) (hpin : s.pin = none)
    (hnext : e.current.kind = .name id) (hdeclared : names.idOf s.device ∈ declared) :
    readReference declared c =
      .error ((Fault.missingDot s.device e.current.text).on e.current) := by
  obtain ⟨t, rest, hc, ht, hadvance⟩ := hr.cons_ahead
  obtain ⟨⟨device, hkind⟩, htext⟩ := Token.symbol?_eq_name_iff.1 ht
  rw [hpin] at hadvance
  obtain rfl := hadvance.eq
  have hid : names.idOf s.device = device := by
    rw [← htext]
    exact (hp.numbered t (hc ▸ List.mem_cons_self)).idOf_eq hkind
  have hcontains : declared.contains device = true := List.contains_iff_mem.2 (hid ▸ hdeclared)
  rw [readReference, hc]
  simp only [hkind, hcontains, if_true, readPin, hnext, htext]

/-- In the draft of a layout, what is read as a reference is a signal with one of its parts. -/
theorem readReference_draft_sound {k : Layout} {passLimit : Nat} (hp : c.Proper names)
    (hk : k.Sound names)
    (h : readReference (k.draft names passLimit).declared c = .ok (r, c')) :
    ∃ s : Signal, ∃ p ∈ k.parts, p.name = s.device ∧ r.Denotes names s ∧ c.Reads s.symbols c' := by
  obtain ⟨s, hdenotes, hdeclared, hreads⟩ := readReference_sound hp h
  have hname : s.device ∈ names.names := hp.mem_names hreads List.mem_cons_self
  obtain ⟨p, hpmem, hpname⟩ := List.mem_map.1 ((hk.idOf_mem_iff hname).1 hdeclared)
  exact ⟨s, p, hpmem, hpname, hdenotes, hreads⟩

theorem readReference_draft_complete {k : Layout} (passLimit : Nat) {p : Part} {s : Signal}
    (hp : c.Proper names) (hr : c.Reads s.symbols e) (hend : s.EndsAt e) (hpart : p ∈ k.parts)
    (hname : p.name = s.device) :
    ∃ r, readReference (k.draft names passLimit).declared c = .ok (r, e) ∧ r.Denotes names s :=
  readReference_complete hp hr hend (hname ▸ List.mem_map_of_mem hpart)

/-! ## Outputs and inputs -/

section
variable {k : Layout} {p : Part} {s : Signal} (passLimit : Nat)

theorem device_draft (hk : k.Sound names) (hp : p ∈ k.parts) (hname : p.name = s.device)
    (hr : r.Denotes names s) :
    (k.draft names passLimit).device r =
      .ok ⟨names.idOf p.name, p.logic.wired (k.driver? names p.name)⟩ := by
  have hfind : (k.draft names passLimit).circuit.find? (names.idOf p.name) =
      some ⟨names.idOf p.name, p.logic.wired (k.driver? names p.name)⟩ :=
    hk.find?_circuit passLimit hp
  rw [Draft.device, hr.device, ← hname, hfind]

/-- A pin word of a flip-flop names an output if it is the name of one. -/
theorem ofName?_eq_some_iff {word : String} {pin : OutputPin} :
    OutputPin.ofName? word = some pin ↔ pin ∈ [OutputPin.q, .qbar] ∧ pin.name? = some word := by
  refine ⟨fun h => ⟨List.mem_of_find?_eq_some h, OutputPin.name?_of_ofName? h⟩, ?_⟩
  rintro ⟨hmem, hname⟩
  simp only [List.mem_cons, List.not_mem_nil, or_false] at hmem
  rcases hmem with rfl | rfl
  all_goals
    obtain rfl := Option.some.inj hname
    rfl

/-- A reference stands for an output if its signal names one. -/
theorem output_draft_iff {o : Terminal} (hk : k.Sound names) (hp : p ∈ k.parts)
    (hname : p.name = s.device) (hr : r.Denotes names s) :
    (k.draft names passLimit).output r = .ok o ↔
      s.IsOutput k.parts ∧ o = Layout.terminal names s := by
  have hdevice := device_draft passLimit hk hp hname hr
  have houtput : s.IsOutput k.parts ↔ ∃ pin ∈ p.logic.outputPins, pin.name? = s.pin := by
    refine ⟨fun ⟨q, hq, hqname, hpin⟩ => ?_, fun hpin => ⟨p, hp, hname, hpin⟩⟩
    rwa [hk.part_eq hp hq (hname.trans hqname.symm)]
  have hterminal : ∀ pin : OutputPin, pin.name? = s.pin →
      Layout.terminal names s = ⟨r.device, pin⟩ := fun pin hpin => by
    rw [Layout.terminal, Signal.output_eq hpin, hr.device]
  simp only [Draft.output, hdevice, bind, Except.bind, Device.kind_wired, houtput]
  cases hpin : r.pin with
  | none =>
    have hspin : s.pin = none := by rw [← hr.pin, hpin, Option.map_none]
    rw [hterminal .out hspin.symm, hspin]
    cases p.logic <;> simp [Logic.kind, Logic.outputPins, OutputPin.name?, eq_comm]
  | some word =>
    have hspin : s.pin = some word.text := by rw [← hr.pin, hpin, Option.map_some]
    rw [hspin]
    cases p.logic with
    | dtype ff =>
      simp only [Logic.kind, Logic.outputPins]
      cases hword : OutputPin.ofName? word.text with
      | none =>
        have hno : ¬ ∃ pin ∈ [OutputPin.q, .qbar], pin.name? = some word.text := by
          rintro ⟨pin, hmem⟩
          rw [ofName?_eq_some_iff.2 hmem] at hword
          cases hword
        simp only [hno, false_and, reduceCtorEq]
      | some pin =>
        have hmem := ofName?_eq_some_iff.1 hword
        have hyes : ∃ pin ∈ [OutputPin.q, .qbar], pin.name? = some word.text := ⟨pin, hmem⟩
        rw [hterminal pin (hmem.2.trans hspin.symm), Except.ok.injEq]
        exact ⟨fun h => ⟨hyes, h.symm⟩, fun h => h.2.symm⟩
    | gate | switch | clock => simp [Logic.kind, Logic.outputPins, OutputPin.name?]

/-- A target names the input at which its sources start. -/
def Signal.Starts (l : Logic) (s : Signal) (first : InputPin) : Prop :=
  (s.pin = some first.name ∨ s.pin = none ∧ first = .gate 1) ∧ (l.input? first).isSome

theorem ofName?_name {pin : InputPin} (h : pin ∈ InputPin.all) :
    InputPin.ofName? pin.name = some pin := by
  have hall : ∀ pin ∈ InputPin.all, InputPin.ofName? pin.name = some pin := by decide +kernel
  exact hall pin h

/-- The inputs of a part are among those that a definition can name. -/
theorem mem_all_of_input? {l : Logic} {pin : InputPin}
    (hl : ∀ g, l = .gate g → g.inputs.length ≤ maxGateInputs)
    (h : (l.input? pin).isSome) : pin ∈ InputPin.all := by
  cases l with
  | gate g =>
    have hmax := hl g rfl
    cases pin with
    | gate m =>
      cases m with
      | zero => cases h
      | succ m =>
        have hlt : m < g.inputs.length := by simpa [Logic.input?] using h
        exact List.mem_append_right _ (List.mem_map.2 ⟨m, List.mem_range.2 (by omega), rfl⟩)
    | clk | data | set | clear => cases h
  | dtype ff =>
    cases pin with
    | gate n => cases h
    | clk | data | set | clear => decide
  | switch | clock => cases h

theorem length_inputs_of_fresh {l : Logic} (h : l.Fresh) :
    ∀ g, l = .gate g → g.inputs.length ≤ maxGateInputs := by
  rintro g rfl
  cases h with
  | gate hpos hmax => simpa using hmax

theorem length_inputs_of_inRange {l : Logic} (h : l.InRange) :
    ∀ g, l = .gate g → g.inputs.length ≤ maxGateInputs := by
  rintro g rfl
  exact h.2.1

/-- The input at which a signal starts. -/
theorem Signal.Starts.input_eq {l : Logic} {first : InputPin} (hl : l.Fresh)
    (h : s.Starts l first) : s.input = first := by
  obtain ⟨hpin | ⟨hpin, rfl⟩, hhas⟩ := h
  · rw [Signal.input, hpin]
    show (InputPin.ofName? first.name).getD (.gate 1) = first
    rw [ofName?_name (mem_all_of_input? (length_inputs_of_fresh hl) hhas), Option.getD_some]
  · rw [Signal.input, hpin]

theorem Signal.starts_iff_of_none {l : Logic} {first : InputPin} (hl : l.Fresh)
    (hpin : s.pin = none) :
    s.Starts l first ↔ (∃ g, l.kind = .gate g) ∧ first = .gate 1 := by
  simp only [Signal.Starts, hpin, reduceCtorEq, true_and, false_or]
  cases hl with
  | gate hpos =>
    constructor
    · rintro ⟨rfl, -⟩
      exact ⟨⟨_, rfl⟩, rfl⟩
    · rintro ⟨-, rfl⟩
      refine ⟨rfl, ?_⟩
      rw [Logic.input?, List.getElem?_replicate, if_pos (by omega)]
      rfl
  | switch | clock | dtype =>
    constructor
    · rintro ⟨rfl, h⟩
      cases h
    · rintro ⟨⟨g, h⟩, -⟩
      cases h

theorem Signal.starts_iff_of_some {l : Logic} {first : InputPin} {word : String} (hl : l.Fresh)
    (hpin : s.pin = some word) :
    s.Starts l first ↔ InputPin.ofName? word = some first ∧ (l.input? first).isSome := by
  simp only [Signal.Starts, hpin, Option.some.injEq, reduceCtorEq, false_and, or_false]
  refine ⟨fun ⟨hword, hhas⟩ => ⟨?_, hhas⟩, fun ⟨hword, hhas⟩ => ⟨?_, hhas⟩⟩
  · rw [hword, ofName?_name (mem_all_of_input? (length_inputs_of_fresh hl) hhas)]
  · exact (InputPin.name_of_ofName? hword).symm

/-- A reference stands for the input at which its signal starts. -/
theorem input_draft_iff {first : InputPin} (hk : k.Sound names) (hp : p ∈ k.parts)
    (hname : p.name = s.device) (hr : r.Denotes names s) :
    (k.draft names passLimit).input r = .ok first ↔ s.Starts p.logic first := by
  have hdevice := device_draft passLimit hk hp hname hr
  have hl := hk.fresh p hp
  simp only [Draft.input, hdevice, bind, Except.bind, Device.kind_wired, Device.isSome_input?_wired]
  cases hpin : r.pin with
  | none =>
    rw [Signal.starts_iff_of_none hl (by rw [← hr.pin, hpin, Option.map_none])]
    cases p.logic <;> simp [Logic.kind, eq_comm]
  | some word =>
    rw [Signal.starts_iff_of_some hl (by rw [← hr.pin, hpin, Option.map_some])]
    dsimp only
    cases hword : InputPin.ofName? word.text with
    | none =>
      simp only [reduceCtorEq, false_and, iff_false]
      split <;> exact fun h => by cases h
    | some pin =>
      dsimp only
      by_cases hhas : (p.logic.input? pin).isSome
      · rw [if_pos hhas, Except.ok.injEq, Option.some.injEq]
        exact ⟨fun h => ⟨h, h ▸ hhas⟩, fun h => h.1⟩
      · rw [if_neg hhas, Option.some.injEq]
        refine ⟨fun h => ?_, fun ⟨h, hhas'⟩ => absurd (h ▸ hhas') hhas⟩
        split at h <;> cases h

end

/-! ## In any draft -/

section
variable {d : Draft} {s : Signal}

/-- A signal stands for an output of a device that the definition has declared. -/
structure Signal.StandsFor (names : NameTable) (d : Draft) (s : Signal) (t : Terminal) : Prop where
  device : t.device = names.idOf s.device
  declared : t.device ∈ d.declared
  output : d.circuit.hasTerminal t = true
  pin : t.pin.name? = s.pin

theorem Signal.StandsFor.output_eq {t : Terminal} (h : s.StandsFor names d t)
    (hr : r.Denotes names s) : d.output r = .ok t := by
  obtain ⟨id, pin⟩ := t
  obtain ⟨device, hfind, hpin⟩ := Circuit.hasTerminal_iff.1 h.output
  have hid : r.device = id := hr.device.trans h.device.symm
  have hdevice : d.device r = .ok device := by
    rw [Draft.device, hid, hfind]
  have hname : pin.name? = r.pin.map (·.text) := h.pin.trans hr.pin.symm
  simp only [Draft.output, hdevice, bind, Except.bind, Device.kind, hid]
  cases hword : r.pin with
  | none =>
    rw [hword, Option.map_none] at hname
    cases hl : device.logic <;> rw [hl] at hpin <;> cases pin <;>
      simp_all [Logic.outputPins, Logic.kind, OutputPin.name?]
  | some word =>
    rw [hword, Option.map_some] at hname
    have hread := ofName?_eq_some_iff.2 ⟨?_, hname⟩
    · cases hl : device.logic <;> rw [hl] at hpin <;> cases pin <;>
        simp_all [Logic.outputPins, Logic.kind, OutputPin.name?]
    · cases pin <;> simp_all [OutputPin.name?]

theorem input_of_starts {device : Device} {first : InputPin}
    (hfind : d.circuit.find? r.device = some device) (hl : device.logic.InRange)
    (hr : r.Denotes names s) (h : s.Starts device.logic first) : d.input r = .ok first := by
  have hdevice : d.device r = .ok device := by rw [Draft.device, hfind]
  obtain ⟨hpin | ⟨hpin, rfl⟩, hhas⟩ := h
  · obtain ⟨word, hword, htext⟩ := Option.map_eq_some_iff.1 (hr.pin.trans hpin)
    have hread := ofName?_name (mem_all_of_input? (length_inputs_of_inRange hl) hhas)
    simp only [Draft.input, hdevice, bind, Except.bind, hword, htext, hread]
    exact if_pos hhas
  · have hnone : r.pin = none := by
      simpa using hr.pin.trans hpin
    simp only [Draft.input, hdevice, bind, Except.bind, hnone, Device.kind]
    cases hlogic : device.logic with
    | gate g => rfl
    | switch | clock | dtype =>
      rw [hlogic] at hhas
      cases hhas

end

end Breadboard.Definition
