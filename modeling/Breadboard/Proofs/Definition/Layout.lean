import Breadboard.Proofs.Circuit.WellFormed
import Breadboard.Proofs.Definition.Grammar

/-!
# Drafts of layouts

While a definition is read without issues, the draft is the one of a layout: `Layout.draft`. Each
change that a reader makes to such a draft is one part, wire or signal more in the layout.

* `addDevice_circuit`: adding a device adds a part.
* `connect_circuit`: connecting an input adds a wire, unless the input is driven.
* `add_probes`: putting a probe on an output adds a signal, unless there is one.
-/
namespace Breadboard

/-! ## Parts and their inputs -/

namespace Logic

variable {l : Logic} {driver? : InputPin → Option Terminal}

@[simp]
theorem kind_wired : (l.wired driver?).kind = l.kind := by
  cases l <;> rfl

@[simp]
theorem outputPins_wired : (l.wired driver?).outputPins = l.outputPins := by
  cases l <;> rfl

theorem input?_wired (pin : InputPin) :
    (l.wired driver?).input? pin = (l.input? pin).map fun _ => driver? pin := by
  cases l with
  | gate g =>
    cases pin with
    | gate n =>
      cases n with
      | zero => rfl
      | succ n => simp [wired, input?, List.getElem?_mapIdx]
    | clk | data | set | clear => rfl
  | dtype ff => cases pin <;> rfl
  | switch | clock => rfl

theorem drive_wired {pin : InputPin} {source : Terminal} (h : (l.input? pin).isSome) :
    (l.wired driver?).drive pin source =
      l.wired fun other => if other = pin then some source else driver? other := by
  cases l with
  | gate g =>
    cases pin with
    | gate n =>
      cases n with
      | zero => cases h
      | succ n =>
        simp only [wired, drive, gate.injEq, Gate.mk.injEq, true_and, and_true]
        refine List.ext_getElem (by simp) fun i hi hi' => ?_
        by_cases hin : i = n
        · subst hin
          simp
        · have hne : ¬ n = i := fun h => hin h.symm
          simp [hin, hne]
    | clk | data | set | clear => cases h
  | dtype ff => cases pin <;> simp_all [wired, drive, input?]
  | switch | clock => cases h

/-- A part as it is when the power comes on, with nothing connected to it. -/
inductive Fresh : Logic → Prop where
  | gate {g : GateKind} {n : Nat} (hpos : 1 ≤ n) (hmax : n ≤ maxGateInputs) :
    Fresh (.gate { kind := g, inputs := List.replicate n none })
  | switch (closed : Bool) : Fresh (.switch closed)
  | clock (c : Clock) : Fresh (.clock c)
  | dtype : Fresh (.dtype {})

theorem fresh_of_ofKind {kind : DeviceKind} {parameter : Option UInt32}
    (h : Logic.ofKind kind parameter = .ok l) : l.Fresh := by
  cases powerOn_of_ofKind h with
  | gate hpos hmax => exact .gate hpos hmax
  | switch closed => exact .switch closed
  | clock => exact .clock _
  | dtype => exact .dtype

theorem Fresh.wired_none (h : l.Fresh) : l.wired (fun _ => none) = l := by
  cases h with
  | gate =>
    simp only [wired, gate.injEq, Gate.mk.injEq, true_and, and_true]
    exact List.ext_getElem (by simp) fun i hi hi' => by simp
  | switch | clock | dtype => rfl

theorem Takes.of_le {first : InputPin} {m n : Nat} (h : l.Takes first m) (hpos : 1 ≤ n)
    (hle : n ≤ m) : l.Takes first n := by
  cases l with
  | gate g =>
    cases first with
    | gate i => exact ⟨h.1, by have := h.2; omega⟩
    | clk | data | set | clear => exact h.elim
  | dtype ff =>
    cases first with
    | gate i => exact h.elim
    | clk | data | set | clear =>
      have hone : m = 1 := h
      show n = 1
      omega
  | switch | clock => cases first <;> exact h.elim

theorem Takes.isSome_input? {first : InputPin} {count : Nat} (h : l.Takes first count) {i : Nat}
    (hi : i < count) : (l.input? (first.plus i)).isSome := by
  cases l with
  | gate g =>
    cases first with
    | gate n =>
      obtain ⟨hpos, hroom⟩ := h
      obtain ⟨n, rfl⟩ : ∃ m, n = m + 1 := ⟨n - 1, by omega⟩
      have hlt : n + i < g.inputs.length := by omega
      rw [InputPin.plus, show n + 1 + i = n + i + 1 by omega, input?, List.getElem?_eq_getElem hlt]
      rfl
    | clk | data | set | clear => exact h.elim
  | dtype ff =>
    cases first with
    | gate n => exact h.elim
    | clk | data | set | clear => rfl
  | switch | clock => cases first <;> exact h.elim

end Logic

namespace Device

variable {id : NameId} {l : Logic} {driver? : InputPin → Option Terminal}

theorem kind_wired : (Device.mk id (l.wired driver?)).kind = l.kind := Logic.kind_wired

theorem isSome_input?_wired (pin : InputPin) :
    ((Device.mk id (l.wired driver?)).input? pin).isSome = (l.input? pin).isSome := by
  rw [input?, Logic.input?_wired, Option.isSome_map]

end Device

namespace Definition

/-! ## Signals and their outputs -/

namespace Signal

variable {s : Signal}

/-- The output that a signal names is the one with that name. -/
theorem output_eq {pin : OutputPin} (h : pin.name? = s.pin) : s.output = pin := by
  rw [output, ← h]
  cases pin <;> rfl

theorem IsOutput.output_mem {parts : List Part} (h : s.IsOutput parts) :
    ∃ p ∈ parts, p.name = s.device ∧ s.output ∈ p.logic.outputPins ∧ s.output.name? = s.pin := by
  obtain ⟨p, hp, hname, pin, hpin, hpinname⟩ := h
  rw [output_eq hpinname]
  exact ⟨p, hp, hname, hpin, hpinname⟩

theorem IsOutput.mono {parts parts' : List Part} (h : s.IsOutput parts)
    (hsub : parts ⊆ parts') : s.IsOutput parts' := by
  obtain ⟨p, hp, hrest⟩ := h
  exact ⟨p, hsub hp, hrest⟩

end Signal

/-! ## Layouts -/

namespace Layout

variable {k : Layout} {names : NameTable} {passLimit : Nat}

/-- The draft in which exactly the layout has been declared. -/
def draft (k : Layout) (names : NameTable) (passLimit : Nat) : Draft where
  circuit := k.circuit names passLimit
  probes := k.probes names
  declared := k.parts.map fun p => names.idOf p.name

/-- What holds of a layout at every point of a reading. -/
structure Sound (names : NameTable) (k : Layout) : Prop where
  interned : ∀ p ∈ k.parts, p.name ∈ names.names
  nodup : (k.parts.map (·.name)).Nodup
  fresh : ∀ p ∈ k.parts, p.logic.Fresh
  targets : ∀ w ∈ k.wires, w.target ∈ k.parts.map (·.name)
  nodup_places : (k.wires.map Wire.place).Nodup
  signals : ∀ s ∈ k.signals, s.IsOutput k.parts
  nodup_signals : k.signals.Nodup

theorem ids_circuit (k : Layout) (names : NameTable) (passLimit : Nat) :
    (k.circuit names passLimit).ids = k.parts.map fun p => names.idOf p.name := by
  simp [circuit, Circuit.ids, Function.comp_def]

namespace Sound

variable {p q : Part} {name : String}

theorem name_eq (h : k.Sound names) (hp : p ∈ k.parts) (hname : name ∈ names.names)
    (he : names.idOf p.name = names.idOf name) : p.name = name :=
  NameTable.idOf_inj (h.interned p hp) hname he

theorem part_eq (h : k.Sound names) (hp : p ∈ k.parts) (hq : q ∈ k.parts)
    (he : p.name = q.name) : p = q :=
  List.inj_on_of_nodup_map h.nodup hp hq he

theorem nodup_ids (h : k.Sound names) : (k.circuit names passLimit).ids.Nodup := by
  rw [ids_circuit]
  refine List.Nodup.map_on (fun p hp q hq he => ?_) (List.Nodup.of_map _ h.nodup)
  exact h.part_eq hp hq (h.name_eq hp (h.interned q hq) he)

theorem find?_circuit (h : k.Sound names) (passLimit : Nat) (hp : p ∈ k.parts) :
    (k.circuit names passLimit).find? (names.idOf p.name) =
      some ⟨names.idOf p.name, p.logic.wired (k.driver? names p.name)⟩ :=
  (Circuit.find?_eq_some_iff h.nodup_ids).2 ⟨List.mem_map_of_mem hp, rfl⟩

/-- The devices that a definition has declared are those with names among its parts. -/
theorem idOf_mem_iff (h : k.Sound names) (hname : name ∈ names.names) :
    names.idOf name ∈ k.parts.map (fun p => names.idOf p.name) ↔
      name ∈ k.parts.map (·.name) := by
  rw [List.mem_map, List.mem_map]
  refine ⟨fun ⟨p, hp, he⟩ => ⟨p, hp, h.name_eq hp hname he⟩, ?_⟩
  rintro ⟨p, hp, rfl⟩
  exact ⟨p, hp, rfl⟩

end Sound

/-! ## One part more -/

/-- The layout with parts added at the end. -/
def addParts (k : Layout) (parts : List Part) : Layout := { k with parts := k.parts ++ parts }

theorem addDevice_circuit (passLimit : Nat) {p : Part} {kind : DeviceKind}
    {parameter : Option UInt32} (h : k.Sound names) (hname : p.name ∈ names.names)
    (hnew : p.name ∉ k.parts.map (·.name)) (hmade : Logic.ofKind kind parameter = .ok p.logic) :
    (k.circuit names passLimit).addDevice (names.idOf p.name) kind parameter =
      .ok ((k.addParts [p]).circuit names passLimit) := by
  have hcontains : (k.circuit names passLimit).contains (names.idOf p.name) = false := by
    rw [← Bool.not_eq_true, Circuit.contains_iff_mem_ids, ids_circuit, h.idOf_mem_iff hname]
    exact hnew
  have hwired : p.logic.wired ((k.addParts [p]).driver? names p.name) = p.logic := by
    have hdriver : (k.addParts [p]).driver? names p.name = fun _ => none := by
      funext pin
      have hfree : ∀ w ∈ k.wires, w.target ≠ p.name :=
        fun w hw he => hnew (he ▸ h.targets w hw)
      simpa [driver?, addParts, Wire.place] using fun w hw he _ => hfree w hw he
    rw [hdriver, (Logic.fresh_of_ofKind hmade).wired_none]
  rw [Circuit.addDevice, if_neg (by simp [hcontains]), hmade]
  show _ = Except.ok (Circuit.mk ((k.parts ++ [p]).map fun q =>
    ⟨names.idOf q.name, q.logic.wired ((k.addParts [p]).driver? names q.name)⟩) passLimit)
  rw [List.map_append, List.map_singleton, hwired]
  rfl

theorem Sound.addParts {parts : List Part} (h : k.Sound names)
    (hnames : ∀ p ∈ parts, p.name ∈ names.names)
    (hnodup : ((k.parts ++ parts).map (·.name)).Nodup)
    (hfresh : ∀ p ∈ parts, p.logic.Fresh) :
    (k.addParts parts).Sound names where
  interned p hp := (List.mem_append.1 hp).elim (h.interned p) (hnames p)
  nodup := hnodup
  fresh p hp := (List.mem_append.1 hp).elim (h.fresh p) (hfresh p)
  targets w hw := by
    show w.target ∈ (k.parts ++ parts).map (·.name)
    rw [List.map_append]
    exact List.mem_append_left _ (h.targets w hw)
  nodup_places := h.nodup_places
  signals s hs := (h.signals s hs).mono (List.subset_append_left _ _)
  nodup_signals := h.nodup_signals

/-! ## One wire more -/

def addWire (k : Layout) (w : Wire) : Layout := { k with wires := k.wires ++ [w] }

def addWires (k : Layout) (ws : List Wire) : Layout := { k with wires := k.wires ++ ws }

theorem addWires_addWire (k : Layout) (w : Wire) (ws : List Wire) :
    (k.addWire w).addWires ws = k.addWires (w :: ws) := by
  simp [addWire, addWires]

theorem driver?_eq_none_iff {target : String} {pin : InputPin} :
    k.driver? names target pin = none ↔ (target, pin) ∉ k.wires.map Wire.place := by
  simp [driver?]

theorem Sound.addWires (h : k.Sound names) {ws : List Wire}
    (htargets : ∀ w ∈ ws, w.target ∈ k.parts.map (·.name))
    (hnodup : ((k.wires ++ ws).map Wire.place).Nodup) : (k.addWires ws).Sound names where
  interned := h.interned
  nodup := h.nodup
  fresh := h.fresh
  targets w hw := (List.mem_append.1 hw).elim (h.targets w) (htargets w)
  nodup_places := hnodup
  signals := h.signals
  nodup_signals := h.nodup_signals

theorem Sound.addWire (h : k.Sound names) {w : Wire} (hw : w.target ∈ k.parts.map (·.name))
    (hfree : k.driver? names w.target w.pin = none) : (k.addWire w).Sound names := by
  refine h.addWires (by simpa using hw) ?_
  rw [List.map_append, List.map_singleton, List.nodup_append']
  refine ⟨h.nodup_places, List.nodup_singleton _, fun place hplace hplace' => ?_⟩
  rw [List.mem_singleton.1 hplace'] at hplace
  exact driver?_eq_none_iff.1 hfree hplace

/-- A wire is the driver of its own input, where that has no other one, and of no other input. -/
theorem driver?_addWire {w : Wire} (hfree : k.driver? names w.target w.pin = none)
    (target : String) (pin : InputPin) :
    (k.addWire w).driver? names target pin =
      if target = w.target ∧ pin = w.pin then some (terminal names w.source)
      else k.driver? names target pin := by
  have hnone : k.wires.find? (fun v => decide (v.place = (w.target, w.pin))) = none := by
    simpa [driver?] using hfree
  by_cases he : target = w.target ∧ pin = w.pin
  · obtain ⟨rfl, rfl⟩ := he
    rw [if_pos ⟨rfl, rfl⟩, driver?, Layout.addWire, List.find?_append, hnone]
    simp [Wire.place]
  · rw [if_neg he, driver?, Layout.addWire, List.find?_append]
    have hw : ¬ w.place = (target, pin) := fun hw =>
      he ⟨(Prod.mk.inj hw).1.symm, (Prod.mk.inj hw).2.symm⟩
    simp [hw, driver?]

theorem modify_circuit {p : Part} {w : Wire} (h : k.Sound names) (hp : p ∈ k.parts)
    (htarget : p.name = w.target) (hpin : (p.logic.input? w.pin).isSome)
    (hfree : k.driver? names w.target w.pin = none) :
    (k.circuit names passLimit).modify (names.idOf w.target)
      (·.drive w.pin (terminal names w.source)) = (k.addWire w).circuit names passLimit := by
  simp only [Circuit.modify, circuit, Layout.addWire, List.map_map, Circuit.mk.injEq, and_true]
  refine List.map_congr_left fun r hr => ?_
  simp only [Function.comp_apply]
  by_cases hrw : r.name = w.target
  · obtain rfl : r = p := h.part_eq hr hp (hrw.trans htarget.symm)
    rw [if_pos (by rw [hrw]), Device.mapLogic, Logic.drive_wired hpin]
    refine congrArg (Device.mk _ <| r.logic.wired ·) (funext fun pin => ?_)
    show _ = (k.addWire w).driver? names r.name pin
    rw [driver?_addWire hfree, hrw]
    simp only [true_and]
  · have hid : names.idOf r.name ≠ names.idOf w.target := by
      intro he
      refine hrw (h.name_eq hr ?_ he)
      rw [← htarget]
      exact h.interned p hp
    rw [if_neg hid]
    refine congrArg (Device.mk _ <| r.logic.wired ·) (funext fun pin => ?_)
    show _ = (k.addWire w).driver? names r.name pin
    rw [driver?_addWire hfree, if_neg fun he => hrw he.1]

/-- Connecting an input of a part is adding a wire, unless the input is driven. -/
theorem connect_circuit (passLimit : Nat) {p q : Part} {w : Wire} (h : k.Sound names)
    (hp : p ∈ k.parts) (hq : q ∈ k.parts) (htarget : p.name = w.target)
    (hsource : q.name = w.source.device)
    (houtput : w.source.output ∈ q.logic.outputPins) (hpin : (p.logic.input? w.pin).isSome) :
    (k.circuit names passLimit).connect (terminal names w.source) (names.idOf w.target) w.pin =
      if (k.driver? names w.target w.pin).isSome then
        .error (.inputConnected (names.idOf w.target) w.pin)
      else .ok ((k.addWire w).circuit names passLimit) := by
  have hdriver := h.find?_circuit passLimit hq
  have hdriven := h.find?_circuit passLimit hp
  rw [hsource] at hdriver
  rw [htarget] at hdriven
  have hinput : Logic.input? (p.logic.wired (k.driver? names w.target)) w.pin =
      some (k.driver? names w.target w.pin) := by
    obtain ⟨old, hold⟩ := Option.isSome_iff_exists.1 hpin
    rw [Logic.input?_wired, hold, Option.map_some]
  have hhas : Device.hasOutput ⟨names.idOf w.source.device, q.logic.wired
      (k.driver? names w.source.device)⟩ w.source.output = true := by
    simpa [Device.hasOutput] using houtput
  simp only [Circuit.connect, terminal, hdriver, hdriven, hhas, Device.input?, hinput]
  cases hfree : k.driver? names w.target w.pin with
  | some t => simp
  | none =>
    simp only [Bool.not_true, Bool.false_eq_true, if_false, Option.isSome_none, Except.ok.injEq]
    exact modify_circuit h hp htarget hpin hfree

/-! ## One signal more -/

def addSignal (k : Layout) (s : Signal) : Layout := { k with signals := k.signals ++ [s] }

def addSignals (k : Layout) (ss : List Signal) : Layout := { k with signals := k.signals ++ ss }

theorem addSignals_addSignal (k : Layout) (s : Signal) (ss : List Signal) :
    (k.addSignal s).addSignals ss = k.addSignals (s :: ss) := by
  simp [addSignal, addSignals]

theorem Sound.addSignals (h : k.Sound names) {ss : List Signal}
    (hs : ∀ s ∈ ss, s.IsOutput k.parts) (hnodup : (k.signals ++ ss).Nodup) :
    (k.addSignals ss).Sound names where
  interned := h.interned
  nodup := h.nodup
  fresh := h.fresh
  targets := h.targets
  nodup_places := h.nodup_places
  signals s hmem := (List.mem_append.1 hmem).elim (h.signals s) (hs s)
  nodup_signals := hnodup

theorem Sound.addSignal (h : k.Sound names) {s : Signal} (hs : s.IsOutput k.parts)
    (hnew : s ∉ k.signals) : (k.addSignal s).Sound names := by
  refine h.addSignals (by simpa using hs) ?_
  rw [List.nodup_append']
  exact ⟨h.nodup_signals, List.nodup_singleton s,
    fun v hv hv' => hnew (List.mem_singleton.1 hv' ▸ hv)⟩

theorem terminal_inj {s s' : Signal} (h : k.Sound names) (hs : s.IsOutput k.parts)
    (hs' : s'.IsOutput k.parts) (he : terminal names s = terminal names s') : s = s' := by
  obtain ⟨p, hp, hname, -, hpin⟩ := hs.output_mem
  obtain ⟨p', hp', hname', -, hpin'⟩ := hs'.output_mem
  obtain ⟨hid, hout⟩ := Terminal.mk.inj he
  rw [← hname, ← hname'] at hid
  have hdevice : s.device = s'.device :=
    hname.symm.trans ((h.name_eq hp (h.interned p' hp') hid).trans hname')
  have hpins : s.pin = s'.pin := by rw [← hpin, ← hpin', hout]
  cases s
  cases s'
  exact Signal.mk.injEq .. ▸ ⟨hdevice, hpins⟩

/-- Putting a probe on an output of a part is adding a signal, unless it is there. -/
theorem add_probes (passLimit : Nat) {s : Signal} (h : k.Sound names) (hs : s.IsOutput k.parts) :
    (k.probes names).add (k.circuit names passLimit) (terminal names s) 0 =
      if s ∈ k.signals then .error (.present (terminal names s).device (terminal names s).pin)
      else .ok ((k.addSignal s).probes names) := by
  obtain ⟨p, hp, hname, houtput, -⟩ := hs.output_mem
  have hfind := h.find?_circuit passLimit hp
  rw [hname] at hfind
  have hcontains : (k.probes names).contains (terminal names s) = true ↔ s ∈ k.signals := by
    simp only [Probes.contains, probes, List.any_map, List.any_eq_true, Function.comp_apply,
      beq_iff_eq]
    refine ⟨?_, fun hmem => ⟨s, hmem, rfl⟩⟩
    rintro ⟨s', hs', he⟩
    rwa [← terminal_inj h (h.signals s' hs') hs he]
  have hhas : Device.hasOutput ⟨names.idOf s.device, p.logic.wired (k.driver? names s.device)⟩
      s.output = true := by
    simpa [Device.hasOutput] using houtput
  rw [Probes.add, show (terminal names s).device = names.idOf s.device from rfl, hfind]
  simp only [show (terminal names s).pin = s.output from rfl, hhas, Bool.not_true,
    Bool.false_eq_true, if_false, hcontains]
  congr 2
  simp only [probes, addSignal, List.map_append, List.map_cons, List.map_nil]
  rfl

end Layout

end Definition

end Breadboard
