import Breadboard.Proofs.Circuit.WellFormed
import Breadboard.Proofs.Definition.Changes

/-!
# Faults inside sections

A reader of lines asks a circuit for changes that the circuit may refuse, and is ready to report
any refusal, also those that no text should bring about. Here it is shown which ones it meets, and
with that which faults the lines of a section can have.

* `Draft.Backed`: every device that a definition has declared is in the circuit.
* `connect_error`, `addDevice_error`, `add_error`: what can be refused.
* `Target.Held.leads`: the target of a connection line stays as it was found.
* `adds_readLine`, `adds_readLines`: an issue found inside a section is neither one of its header
  nor an internal error.
-/
namespace Breadboard

/-! ## Devices that stay -/

theorem Logic.ofKind_error {kind : DeviceKind} {parameter : Option UInt32} {e : DeviceError}
    (h : Logic.ofKind kind parameter = .error e) :
    (∃ value, parameter = some value ∧ e = .invalidParameter kind value) ∨
      parameter = none ∧ e = .missingParameter kind := by
  unfold ofKind at h
  split at h
  · cases h
  · rename_i value
    split at h <;> cases h
    exact .inl ⟨value, rfl, rfl⟩
  · rename_i g value hxor
    split at h <;> cases h
    exact .inl ⟨value, rfl, rfl⟩
  · cases h
  · rename_i value
    split at h
    · cases h
    · split at h <;> cases h
      exact .inl ⟨value, rfl, rfl⟩
  · cases h
    exact .inr ⟨rfl, rfl⟩
  · rename_i value
    split at h <;> cases h
    exact .inl ⟨value, rfl, rfl⟩
  · cases h

/-- The second device has the inputs of the first one, and is a working part if that one is. -/
structure Device.Keeps (d d' : Device) : Prop where
  gateInputs : d'.gateInputs = d.gateInputs
  input : ∀ pin, (d'.input? pin).isSome = (d.input? pin).isSome
  inRange : d.logic.InRange → d'.logic.InRange

namespace Device.Keeps

variable {d d' d'' : Device}

theorem refl (d : Device) : d.Keeps d := ⟨rfl, fun _ => rfl, fun h => h⟩

theorem trans (h : d.Keeps d') (h' : d'.Keeps d'') : d.Keeps d'' where
  gateInputs := h'.gateInputs.trans h.gateInputs
  input pin := (h'.input pin).trans (h.input pin)
  inRange := h'.inRange ∘ h.inRange

theorem drive (d : Device) (pin : InputPin) (source : Terminal) :
    d.Keeps (d.mapLogic (·.drive pin source)) := by
  obtain ⟨id, l⟩ := d
  refine ⟨?_, fun pin' => ?_, fun h => h.drive pin source⟩
  · cases l with
    | gate g =>
      rcases pin with (_ | n) | _ | _ | _ | _ <;> try rfl
      exact List.length_set
    | dtype ff => cases pin <;> rfl
    | switch | clock => rfl
  · cases l with
    | gate g =>
      rcases pin with (_ | n) | _ | _ | _ | _ <;> try rfl
      rcases pin' with (_ | m) | _ | _ | _ | _ <;> try rfl
      simp only [Device.input?, Device.mapLogic, Logic.drive, Logic.input?]
      rw [Bool.eq_iff_iff]
      simp
    | dtype ff => cases pin <;> cases pin' <;> rfl
    | switch | clock => rfl

end Device.Keeps

namespace Circuit

variable {c c' : Circuit} {id : NameId} {d : Device}

/-- A device that is added is found under its number, and it is a working part. -/
theorem exists_find?_of_addDevice {kind : DeviceKind} {parameter : Option UInt32}
    (hadd : c.addDevice id kind parameter = .ok c') :
    ∃ d, c'.find? id = some d ∧ d.logic.InRange := by
  obtain ⟨hnew, l, hl, rfl⟩ := addDevice_eq_ok_iff.1 hadd
  refine ⟨⟨id, l⟩, ?_, (Logic.powerOn_of_ofKind hl).inRange⟩
  have hnone := find?_eq_none_iff.2 hnew
  rw [find?] at hnone ⊢
  rw [List.find?_append, hnone]
  simp

theorem exists_find?_of_connect {source : Terminal} {target : NameId} {pin : InputPin}
    (hconnect : c.connect source target pin = .ok c') (h : c.find? id = some d) :
    ∃ d', c'.find? id = some d' ∧ d.Keeps d' := by
  rw [eq_modify_of_connect hconnect, find?_modify, h]
  split
  · exact ⟨_, rfl, .drive d pin source⟩
  · exact ⟨d, rfl, .refl d⟩

/-! ## Refusals -/

theorem addDevice_error {kind : DeviceKind} {parameter : Option UInt32} {e : DeviceError}
    (h : c.addDevice id kind parameter = .error e) :
    e = .present id ∨ (∃ value, parameter = some value ∧ e = .invalidParameter kind value) ∨
      parameter = none ∧ e = .missingParameter kind := by
  unfold addDevice at h
  split at h
  · cases h
    exact .inl rfl
  · split at h
    · cases h
    · rename_i hkind
      cases h
      exact .inr (Logic.ofKind_error hkind)

/-- An output is connected to an input that is there, unless the input has a driver already. -/
theorem connect_error {source : Terminal} {pin : InputPin} {e : WiringError}
    (hsource : c.hasTerminal source = true) (htarget : c.find? id = some d)
    (hpin : (d.input? pin).isSome) (h : c.connect source id pin = .error e) :
    e = .inputConnected id pin := by
  obtain ⟨driver, hdriver, hout⟩ := hasTerminal_iff.1 hsource
  have hhas : driver.hasOutput source.pin = true := by simpa [Device.hasOutput] using hout
  simp only [connect, hdriver, hhas, htarget, Bool.not_true, Bool.false_eq_true, if_false] at h
  split at h
  · rename_i hnone
    rw [hnone] at hpin
    cases hpin
  · cases h
    rfl
  · cases h

end Circuit

theorem Probes.add_error {p : Probes} {c : Circuit} {t : Terminal} {blanks : Nat} {e : ProbeError}
    (ht : c.hasTerminal t = true) (h : p.add c t blanks = .error e) :
    e = .present t.device t.pin := by
  obtain ⟨d, hd, hout⟩ := Circuit.hasTerminal_iff.1 ht
  have hhas : d.hasOutput t.pin = true := by simpa [Device.hasOutput] using hout
  simp only [add, hd, hhas, Bool.not_true, Bool.false_eq_true, if_false] at h
  split at h
  · cases h
    rfl
  · cases h

namespace Definition

/-! ## Backed drafts -/

namespace Draft

variable {d d' : Draft} {r : Reference} {c c' : Cursor}

/-- Every device that the definition has declared is in the circuit, and is a working part. -/
def Backed (d : Draft) : Prop :=
  ∀ id ∈ d.declared, ∃ dev, d.circuit.find? id = some dev ∧ dev.logic.InRange

theorem Change.exists_find? (h : Change d d') {id : NameId} {dev : Device}
    (hdev : d.circuit.find? id = some dev) :
    ∃ dev', d'.circuit.find? id = some dev' ∧ dev.Keeps dev' := by
  cases h with
  | report | probe => exact ⟨dev, hdev, .refl dev⟩
  | device hadd => exact ⟨dev, Circuit.find?_of_addDevice hadd hdev, .refl dev⟩
  | wire hconnect => exact Circuit.exists_find?_of_connect hconnect hdev

theorem Leads.exists_find? (h : d.Leads d') {id : NameId} {dev : Device}
    (hdev : d.circuit.find? id = some dev) :
    ∃ dev', d'.circuit.find? id = some dev' ∧ dev.Keeps dev' := by
  refine h.preserves (P := fun e => ∃ dev', e.circuit.find? id = some dev' ∧ dev.Keeps dev')
    (fun hchange ⟨dev', hdev', hkeeps⟩ => ?_) ⟨dev, hdev, .refl dev⟩
  obtain ⟨dev'', hdev'', hkeeps'⟩ := hchange.exists_find? hdev'
  exact ⟨dev'', hdev'', hkeeps.trans hkeeps'⟩

theorem Backed.change (hd : d.Backed) (h : Change d d') : d'.Backed := by
  have hold : ∀ id ∈ d.declared, ∃ dev, d'.circuit.find? id = some dev ∧ dev.logic.InRange := by
    intro id hid
    obtain ⟨dev, hdev, hrange⟩ := hd id hid
    obtain ⟨dev', hdev', hkeeps⟩ := h.exists_find? hdev
    exact ⟨dev', hdev', hkeeps.inRange hrange⟩
  intro id hid
  cases h with
  | report | wire | probe => exact hold id hid
  | device hadd =>
    rcases List.mem_append.1 hid with hid | hid
    · exact hold id hid
    · rw [List.mem_singleton.1 hid]
      exact Circuit.exists_find?_of_addDevice hadd

theorem Backed.leads (hd : d.Backed) (h : d.Leads d') : d'.Backed :=
  h.preserves (fun hchange hd => hd.change hchange) hd

/-! ## Issues of a kind -/

/-- The issues that the second draft has more than the first one have faults of a kind. -/
def Adds (P : Fault → Prop) (d d' : Draft) : Prop :=
  ∃ new, d'.issues = d.issues ++ new ∧ ∀ i ∈ new, P i.fault

namespace Adds

variable {P Q : Fault → Prop} {d'' : Draft}

theorem of_issues_eq (h : d'.issues = d.issues) : d.Adds P d' :=
  ⟨[], by rw [h, List.append_nil], fun _ hi => absurd hi List.not_mem_nil⟩

theorem refl (d : Draft) : d.Adds P d := of_issues_eq rfl

theorem trans (h : d.Adds P d') (h' : d'.Adds P d'') : d.Adds P d'' := by
  obtain ⟨new, hnew, hP⟩ := h
  obtain ⟨new', hnew', hP'⟩ := h'
  refine ⟨new ++ new', by rw [hnew', hnew, List.append_assoc], fun i hi => ?_⟩
  exact (List.mem_append.1 hi).elim (hP i) (hP' i)

theorem mono (h : d.Adds P d') (hPQ : ∀ f, P f → Q f) : d.Adds Q d' := by
  obtain ⟨new, hnew, hP⟩ := h
  exact ⟨new, hnew, fun i hi => hPQ _ (hP i hi)⟩

theorem report {i : Issue} (d : Draft) (h : P i.fault) : d.Adds P (d.report i) :=
  ⟨[i], rfl, fun j hj => by rwa [List.mem_singleton.1 hj]⟩

theorem foldl {α : Type} {f : Draft → α → Draft} (hf : ∀ (d : Draft) a, d.Adds P (f d a))
    (as : List α) (d : Draft) : d.Adds P (as.foldl f d) := by
  induction as generalizing d with
  | nil => exact .refl d
  | cons a as ih => exact (hf d a).trans (ih _)

end Adds

end Draft

/-- The fault may be found inside a section: it is neither a character that has no place, nor one
of the headers, nor a refusal that no text should bring about. -/
def Fault.InSection : Fault → Prop
  | stray _ | expectedSection _ _ | missingSection _ _ | expectedHeading _ | unclosedHeader _ _
  | misplacedSection _ | internal _ => False
  | _ => True

theorem Fault.inSection_iff {f : Fault} :
    f.InSection ↔ f.kind ∉ [.invalidCharacter, .invalidHeader, .missingHeader, .internalError] := by
  cases f <;> simp [InSection, kind]

variable {d d' : Draft} {r : Reference} {t : Target} {c c' : Cursor} {i : Issue}

theorem adds_endLine (d : Draft) (c : Cursor) : d.Adds Fault.InSection (d.endLine c).2 := by
  unfold Draft.endLine
  split
  · exact .refl d
  split
  · exact .report d trivial
  · exact .report d trivial

theorem adds_abandonLine (d : Draft) (c : Cursor) (h : i.fault.InSection) :
    d.Adds Fault.InSection (d.abandonLine c i).2 :=
  .report d h

/-! ## Device lines -/

theorem inSection_takeName {names : List (NameId × Token)} {t : Token}
    (h : d.takeName names t = .error i) : i.fault.InSection := by
  unfold Draft.takeName at h
  split at h
  · split at h <;> cases h
  · cases h
  · cases h
    trivial

theorem adds_takeName {names read : List (NameId × Token)} {t : Token}
    (h : d.takeName names t = .ok (read, d')) : d.Adds Fault.InSection d' := by
  unfold Draft.takeName at h
  split at h
  · split at h
    · cases h
      exact .report d trivial
    · cases h
      exact .refl d
  · cases h
    exact .report d trivial
  · cases h

theorem adds_readNames (names : List (NameId × Token)) (c : Cursor) (d : Draft) :
    d.Adds Fault.InSection (readNames names c d).1 ∧
      ∀ i, (readNames names c d).2 = .error i → i.fault.InSection := by
  fun_induction readNames names c d with
  | case1 =>
    refine ⟨.refl _, fun i h => ?_⟩
    cases h
    trivial
  | case2 _ _ _ _ _ _ _ htake =>
    refine ⟨.refl _, fun i h => ?_⟩
    cases h
    exact inSection_takeName htake
  | case3 _ _ _ _ _ _ _ _ htake _ ih =>
    exact ⟨(adds_takeName htake).trans ih.1, ih.2⟩
  | case4 _ _ _ _ _ _ _ _ htake => exact ⟨adds_takeName htake, fun i h => by cases h⟩

theorem inSection_readParameter (h : readParameter c = .error i) : i.fault.InSection := by
  simp only [readParameter] at h
  split at h
  · cases h
  split at h
  · cases h
    trivial
  split at h
  · cases h
    trivial
  split at h
  · cases h
  · cases h
    trivial

theorem inSection_readKind (h : readKind c = .error i) : i.fault.InSection := by
  simp only [readKind] at h
  split at h
  · cases h
    trivial
  split at h
  · cases hread : readParameter c.advance.advance with
    | error issue =>
      rw [hread] at h
      cases h
      exact inSection_readParameter hread
    | ok x =>
      rw [hread] at h
      cases h
  · cases h
    trivial

/-- A device is only refused for what is wrong with its line. -/
theorem adds_declare (d : Draft) (kind : DeviceKind) (parameter : Option UInt32)
    (name : NameId × Token) : d.Adds Fault.InSection (d.declare kind parameter name) := by
  simp only [Draft.declare]
  cases hadd : d.circuit.addDevice name.1 kind parameter with
  | ok circuit => exact .of_issues_eq rfl
  | error e =>
    rcases Circuit.addDevice_error hadd with rfl | ⟨value, -, rfl⟩ | ⟨-, rfl⟩
    · exact .report d trivial
    · exact .report d trivial
    · exact .report d trivial

theorem adds_readDeviceLine (c : Cursor) (d : Draft) :
    d.Adds Fault.InSection (readDeviceLine c d).2 := by
  have hnames := adds_readNames [] c d
  unfold readDeviceLine
  split
  · rename_i hread
    rw [hread] at hnames
    exact hnames.1.trans (adds_abandonLine _ _ (hnames.2 _ rfl))
  · rename_i d' names c' hread
    rw [hread] at hnames
    split
    · rename_i hkind
      exact hnames.1.trans (adds_abandonLine _ _ (inSection_readKind hkind))
    · rename_i kind parameter c'' hkind
      have hdeclare := Draft.Adds.foldl (fun d => adds_declare d kind parameter) names d'
      exact hnames.1.trans (hdeclare.trans (adds_endLine _ _))

/-! ## References -/

theorem inSection_readPin {device : NameId} {name : Token}
    (h : readPin device name c = .error i) : i.fault.InSection := by
  simp only [readPin] at h
  split at h
  · split at h
    · cases h
    · cases h
      trivial
    · cases h
      trivial
  · cases h
    trivial
  · cases h

theorem inSection_readReference {declared : List NameId}
    (h : readReference declared c = .error i) : i.fault.InSection := by
  unfold readReference at h
  split at h
  · cases h
    trivial
  split at h
  · split at h
    · exact inSection_readPin h
    · cases h
      trivial
  · cases h
    trivial
  · cases h
    trivial

theorem exists_find?_of_readReference (hd : d.Backed)
    (h : readReference d.declared c = .ok (r, c')) :
    ∃ dev, d.circuit.find? r.device = some dev ∧ dev.logic.InRange :=
  hd r.device (mem_declared_of_readReference h)

theorem device_eq {dev : Device} (hdev : d.circuit.find? r.device = some dev) :
    d.device r = .ok dev := by
  rw [Draft.device, hdev]

theorem inSection_output {dev : Device} (hdev : d.circuit.find? r.device = some dev)
    (h : d.output r = .error i) : i.fault.InSection := by
  simp only [Draft.output, device_eq hdev, bind, Except.bind] at h
  split at h
  · cases h
    trivial
  · cases h
  · split at h <;> cases h
    trivial
  · cases h
    trivial

/-- What a reference stands for as a source or signal is an output of the circuit. -/
theorem hasTerminal_output {o : Terminal} (h : d.output r = .ok o) :
    d.circuit.hasTerminal o = true := by
  rw [Circuit.hasTerminal_iff]
  cases hdev : d.circuit.find? r.device with
  | none => simp [Draft.output, Draft.device, hdev, bind, Except.bind] at h
  | some dev =>
    simp only [Draft.output, device_eq hdev, bind, Except.bind, Device.kind] at h
    cases hl : dev.logic with
    | dtype ff =>
      simp only [hl, Logic.kind] at h
      cases hpin : r.pin with
      | none => simp [hpin] at h
      | some pin =>
        simp only [hpin] at h
        split at h <;> cases h
        rename_i output houtput
        refine ⟨dev, hdev, ?_⟩
        rw [hl]
        exact List.mem_of_find?_eq_some houtput
    | gate g | switch closed | clock k =>
      simp only [hl, Logic.kind] at h
      cases hpin : r.pin with
      | none =>
        simp only [hpin] at h
        cases h
        exact ⟨dev, hdev, by rw [hl]; exact List.mem_singleton_self _⟩
      | some pin => simp [hpin] at h

theorem inSection_input {dev : Device} (hdev : d.circuit.find? r.device = some dev)
    (h : d.input r = .error i) : i.fault.InSection := by
  simp only [Draft.input, device_eq hdev, bind, Except.bind] at h
  split at h
  · split at h
    · cases h
      trivial
    · cases h
    · cases h
      trivial
  split at h
  · split at h
    · cases h
      trivial
    · cases h
      trivial
  split at h
  · cases h
  · split at h
    · cases h
      trivial
    · cases h
      trivial
    · cases h
      trivial

/-- What a reference stands for as a target is an input of its device. -/
theorem isSome_input? {dev : Device} {pin : InputPin}
    (hdev : d.circuit.find? r.device = some dev) (hrange : dev.logic.InRange)
    (h : d.input r = .ok pin) : (dev.input? pin).isSome := by
  simp only [Draft.input, device_eq hdev, bind, Except.bind] at h
  split at h
  · split at h
    · cases h
    · rename_i g hkind
      cases h
      cases hl : dev.logic with
      | gate gate =>
        rw [hl] at hrange
        rw [Device.input?, hl, Logic.input?, List.getElem?_eq_getElem hrange.1]
        rfl
      | switch | clock | dtype =>
        rw [Device.kind, hl] at hkind
        cases hkind
    · cases h
  split at h
  · split at h <;> cases h
  split at h
  · rename_i hhas
    cases h
    exact hhas
  · split at h <;> cases h

/-! ## Connection lines -/

/-- The device of the target is in the circuit and has the input at which the line starts. -/
def Target.Held (t : Target) (d : Draft) : Prop :=
  ∃ dev, d.circuit.find? t.reference.device = some dev ∧ dev.gateInputs = t.inputs ∧
    (dev.input? t.first).isSome

theorem Target.Held.leads (h : t.Held d) (hleads : d.Leads d') : t.Held d' := by
  obtain ⟨dev, hdev, hinputs, hfirst⟩ := h
  obtain ⟨dev', hdev', hkeeps⟩ := hleads.exists_find? hdev
  exact ⟨dev', hdev', hkeeps.gateInputs.trans hinputs, by rwa [hkeeps.input]⟩

theorem inSection_readTarget (hd : d.Backed) (h : readTarget d c = .error i) :
    i.fault.InSection := by
  simp only [readTarget, bind, Except.bind] at h
  split at h
  · rename_i hread
    cases h
    exact inSection_readReference hread
  rename_i hread
  obtain ⟨dev, hdev, -⟩ := exists_find?_of_readReference hd hread
  split at h
  · rename_i hinput
    cases h
    exact inSection_input hdev hinput
  rw [device_eq hdev] at h
  dsimp only at h
  split at h <;> cases h
  trivial

theorem held_of_readTarget (hd : d.Backed) (h : readTarget d c = .ok (t, c')) : t.Held d := by
  simp only [readTarget, bind, Except.bind] at h
  split at h
  · cases h
  rename_i hread
  obtain ⟨dev, hdev, hrange⟩ := exists_find?_of_readReference hd hread
  split at h
  · cases h
  rename_i hinput
  rw [device_eq hdev] at h
  dsimp only at h
  split at h <;> cases h
  exact ⟨dev, hdev, rfl, isSome_input? hdev hrange hinput⟩

theorem inSection_pin {index : Nat} (h : t.pin index r = .error i) : i.fault.InSection := by
  unfold Target.pin at h
  split at h
  · split at h <;> cases h
    trivial
  · split at h <;> cases h
    trivial

/-- The input that a source drives is one of the device of the target. -/
theorem Target.Held.isSome_input? {index : Nat} {pin : InputPin} (h : t.Held d)
    (hpin : t.pin index r = .ok pin) :
    ∃ dev, d.circuit.find? t.reference.device = some dev ∧ (dev.input? pin).isSome := by
  obtain ⟨dev, hdev, hinputs, hfirst⟩ := h
  refine ⟨dev, hdev, ?_⟩
  unfold Target.pin at hpin
  split at hpin
  · rename_i n hn
    split at hpin <;> cases hpin
    rename_i hle
    rw [hn] at hfirst
    rw [← hinputs] at hle
    cases hl : dev.logic with
    | gate g =>
      simp only [Device.input?, Device.gateInputs, hl] at hfirst hle ⊢
      cases n with
      | zero => cases hfirst
      | succ n =>
        rw [Nat.succ_add, Logic.input?, List.getElem?_eq_getElem (by omega)]
        rfl
    | dtype ff =>
      rw [Device.input?, hl] at hfirst
      cases n <;> cases hfirst
    | switch | clock =>
      rw [Device.input?, hl] at hfirst
      cases hfirst
  · split at hpin <;> cases hpin
    exact hfirst

/-- A connection that a line asks for is only refused if the input has a driver already. -/
theorem connect_error {index : Nat} {o : Terminal} {pin : InputPin} {e : WiringError}
    (ht : t.Held d) (ho : d.output r = .ok o) (hpin : t.pin index r = .ok pin)
    (h : d.circuit.connect o t.reference.device pin = .error e) :
    e = .inputConnected t.reference.device pin := by
  obtain ⟨dev, hdev, hhas⟩ := ht.isSome_input? hpin
  exact Circuit.connect_error (hasTerminal_output ho) hdev hhas h

theorem inSection_attach {dev : Device} {index : Nat} (ht : t.Held d)
    (hdev : d.circuit.find? r.device = some dev) (h : d.attach t index r = .error i) :
    i.fault.InSection := by
  simp only [Draft.attach, bind, Except.bind] at h
  split at h
  · rename_i houtput
    cases h
    exact inSection_output hdev houtput
  rename_i houtput
  split at h
  · rename_i hpin
    cases h
    exact inSection_pin hpin
  rename_i hpin
  split at h
  · cases h
  · cases h
  · rename_i hne hconnect
    exact absurd (connect_error ht houtput hpin hconnect) (hne _ _)

theorem adds_attach {index : Nat} (h : d.attach t index r = .ok d') :
    d.Adds Fault.InSection d' := by
  simp only [Draft.attach, bind, Except.bind] at h
  split at h
  · cases h
  split at h
  · cases h
  split at h
  · cases h
    exact .of_issues_eq rfl
  · cases h
    exact .report d trivial
  · cases h

theorem adds_readSources (t : Target) (index : Nat) (c : Cursor) (d : Draft) (hd : d.Backed)
    (ht : t.Held d) : d.Adds Fault.InSection (readSources t index c d).2 := by
  fun_induction readSources t index c d with
  | case1 index c d issue hread => exact adds_abandonLine _ _ (inSection_readReference hread)
  | case2 index c d source c' hread issue hattach =>
    obtain ⟨dev, hdev, -⟩ := exists_find?_of_readReference hd hread
    exact adds_abandonLine _ _ (inSection_attach ht hdev hattach)
  | case3 index c d source c' hread d' hattach hcomma ih =>
    have hleads := Draft.leads_attach hattach
    exact (adds_attach hattach).trans (ih (hd.leads hleads) (ht.leads hleads))
  | case4 index c d source c' hread d' hattach hcomma =>
    exact (adds_attach hattach).trans (adds_endLine _ _)

theorem adds_readConnectionLine (c : Cursor) (d : Draft) (hd : d.Backed) :
    d.Adds Fault.InSection (readConnectionLine c d).2 := by
  unfold readConnectionLine
  split
  · rename_i hread
    exact adds_abandonLine _ _ (inSection_readTarget hd hread)
  · rename_i hread
    exact adds_readSources _ _ _ _ hd (held_of_readTarget hd hread)

/-! ## Monitor lines -/

/-- A probe that a line asks for is only refused if the output has one already. -/
theorem add_error {o : Terminal} {blanks : Nat} {e : ProbeError} (ho : d.output r = .ok o)
    (h : d.probes.add d.circuit o blanks = .error e) : e = .present o.device o.pin :=
  Probes.add_error (hasTerminal_output ho) h

theorem adds_monitor {dev : Device} (hdev : d.circuit.find? r.device = some dev) :
    d.Adds Fault.InSection (d.monitor r) := by
  unfold Draft.monitor
  split
  · rename_i houtput
    exact .report d (inSection_output hdev houtput)
  rename_i houtput
  split
  · exact .of_issues_eq rfl
  · exact .report d trivial
  · rename_i hne hadd
    exact absurd (add_error houtput hadd) (hne _ _)

theorem adds_readMonitorLine (c : Cursor) (d : Draft) (hd : d.Backed) :
    d.Adds Fault.InSection (readMonitorLine c d).2 := by
  fun_induction readMonitorLine c d with
  | case1 c d issue hread => exact adds_abandonLine _ _ (inSection_readReference hread)
  | case2 c d source c' hread hcomma ih =>
    obtain ⟨dev, hdev, -⟩ := exists_find?_of_readReference hd hread
    exact (adds_monitor hdev).trans (ih (hd.leads (d.leads_monitor source)))
  | case3 c d source c' hread hcomma =>
    obtain ⟨dev, hdev, -⟩ := exists_find?_of_readReference hd hread
    exact (adds_monitor hdev).trans (adds_endLine _ _)

/-! ## Sections -/

/-- An issue of a line is neither one of a header nor an internal error. -/
theorem adds_readLine (s : Section) (c : Cursor) (d : Draft) (hd : d.Backed) :
    d.Adds Fault.InSection (readLine s c d).2 := by
  cases s with
  | devices => exact adds_readDeviceLine c d
  | conns => exact adds_readConnectionLine c d hd
  | monit => exact adds_readMonitorLine c d hd

theorem adds_readLines (s : Section) (limit left : Nat) (c : Cursor) (d : Draft) (hd : d.Backed) :
    d.Adds Fault.InSection (readLines s limit left c d) := by
  induction left generalizing c d with
  | zero =>
    simp only [readLines]
    split
    · exact .refl d
    · exact .report d trivial
  | succ left ih =>
    simp only [readLines]
    split
    · exact .refl d
    · exact (adds_readLine s c d hd).trans (ih _ _ (hd.leads (builds_readLine s c d).leads))

end Definition

end Breadboard
