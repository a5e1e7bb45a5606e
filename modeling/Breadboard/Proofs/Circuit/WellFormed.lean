import Breadboard.Circuit.Topology
import Breadboard.Proofs.Circuit.Wiring

/-!
# Well-formed circuits

What every change of a circuit keeps: numbers are unique, gates have as many inputs as their kind
allows, clocks are within their half-period, and every driver is an output of a device.

* `WellFormed.addDevice`, `WellFormed.connect`, `WellFormed.setSwitch`, `WellFormed.cycle`,
  `WellFormed.reset`: the changes of a circuit keep it well-formed.
* `WellFormed.exists_output?_of_bare_eq`: whatever is in its devices, an input that is driven reads
  the level of an output.
* `WellFormed.edge_lt`: the edges of its graph join nodes of the graph.
-/
namespace Breadboard

/-! ## Parts -/

namespace Logic

/-- A part as it is when the power comes on, with nothing connected to it. -/
inductive PowerOn : Logic → Prop where
  | gate {g : GateKind} {n : Nat} (hpos : 1 ≤ n) (hmax : n ≤ maxGateInputs)
      (hxor : g = .xor → n = 2) : PowerOn (.gate { kind := g, inputs := List.replicate n none })
  | switch (closed : Bool) : PowerOn (.switch closed)
  | clock {halfPeriod : UInt32} (hpos : 0 < halfPeriod) : PowerOn (.clock { halfPeriod })
  | dtype : PowerOn (.dtype {})

theorem powerOn_of_ofKind {l : Logic} {kind : DeviceKind} {parameter : Option UInt32}
    (h : ofKind kind parameter = .ok l) : l.PowerOn := by
  unfold ofKind at h
  split at h
  · cases h
    exact .gate (by decide) (by decide) fun _ => rfl
  · split at h <;> cases h
    exact .gate (by decide) (by decide) fun _ => rfl
  · rename_i g value hxor
    split at h
    · rename_i hrange
      cases h
      exact .gate hrange.1 hrange.2 fun hg => (hxor hg).elim
    · cases h
  · cases h
    exact .switch _
  · split at h
    · cases h
      exact .switch _
    · split at h <;> cases h
      exact .switch _
  · cases h
  · split at h <;> cases h
    rename_i hzero
    exact .clock (UInt32.pos_iff_ne_zero.2 hzero)
  · cases h
    exact .dtype

/-- A gate has from one to sixteen inputs, and two if it is an `XOR`; a clock is within its
half-period. -/
def InRange : Logic → Prop
  | gate g =>
    1 ≤ g.inputs.length ∧ g.inputs.length ≤ maxGateInputs ∧
      (g.kind = .xor → g.inputs.length = 2)
  | clock k => 0 < k.halfPeriod ∧ k.counter < k.halfPeriod
  | _ => True

variable {l : Logic}

theorem PowerOn.inRange (h : l.PowerOn) : l.InRange := by
  cases h with
  | gate hpos hmax hxor => simpa [InRange] using ⟨hpos, hmax, hxor⟩
  | clock hpos => exact ⟨hpos, hpos⟩
  | switch | dtype => trivial

theorem PowerOn.inputs_open (h : l.PowerOn) {pin : InputPin} {driver : Option Terminal}
    (hin : (pin, driver) ∈ l.inputs) : driver = none := by
  cases h with
  | gate =>
    simp only [inputs, List.mem_mapIdx, List.getElem_replicate, Prod.mk.injEq] at hin
    obtain ⟨i, hi, -, rfl⟩ := hin
    rfl
  | dtype => simp [inputs] at hin; tauto
  | switch | clock => cases hin

/-- A clock counts up to its half-period and starts again before it gets there. -/
theorem InRange.tick (h : l.InRange) : l.tick.InRange := by
  cases l with
  | clock k =>
    simp only [Logic.tick, Clock.tick]
    split
    · exact ⟨h.1, h.1⟩
    · rename_i hlt
      exact ⟨h.1, UInt32.not_le.1 hlt⟩
  | gate | switch | dtype => exact h

theorem InRange.refresh (read : Option Terminal → Bool) (h : l.InRange) :
    (l.refresh read).InRange := by
  cases l <;> exact h

theorem InRange.latch (read : Option Terminal → Bool) (h : l.InRange) :
    (l.latch read).InRange := by
  cases l <;> exact h

theorem InRange.reset (h : l.InRange) : l.reset.InRange := by
  cases l with
  | clock k => exact ⟨h.1, h.1⟩
  | gate | switch | dtype => exact h

theorem InRange.drive (h : l.InRange) (pin : InputPin) (source : Terminal) :
    (l.drive pin source).InRange := by
  cases l with
  | gate g =>
    cases pin with
    | gate n =>
      cases n with
      | zero => exact h
      | succ n => simpa [InRange, Logic.drive] using h
    | clk | data | set | clear => exact h
  | dtype ff => cases pin <;> trivial
  | switch | clock => exact h

/-! ## Pins -/

@[simp]
theorem outputPins_bare (l : Logic) : l.bare.outputPins = l.outputPins := by
  cases l <;> rfl

@[simp]
theorem inputs_bare (l : Logic) : l.bare.inputs = l.inputs := by
  cases l <;> rfl

@[simp]
theorem outputPins_drive (l : Logic) (pin : InputPin) (source : Terminal) :
    (l.drive pin source).outputPins = l.outputPins := by
  cases l with
  | gate g =>
    cases pin with
    | gate n => cases n <;> rfl
    | clk | data | set | clear => rfl
  | dtype ff => cases pin <;> rfl
  | switch | clock => rfl

theorem mem_inputs_drive {pin pin' : InputPin} {source : Terminal} {driver : Option Terminal}
    (h : (pin', driver) ∈ (l.drive pin source).inputs) :
    (pin', driver) ∈ l.inputs ∨ driver = some source := by
  cases l with
  | gate g =>
    cases pin with
    | gate n =>
      cases n with
      | zero => exact .inl h
      | succ n =>
        simp only [drive, inputs, List.mem_mapIdx, List.length_set, List.getElem_set,
          Prod.mk.injEq] at h ⊢
        obtain ⟨i, hi, hpin, hdriver⟩ := h
        split at hdriver
        · exact .inr hdriver.symm
        · exact .inl ⟨i, hi, hpin, hdriver⟩
    | clk | data | set | clear => exact .inl h
  | dtype ff =>
    cases pin with
    | gate n => exact .inl h
    | clk | data | set | clear =>
      simp only [drive, inputs, List.mem_cons, Prod.mk.injEq, List.not_mem_nil, or_false] at h ⊢
      tauto
  | switch | clock => exact .inl h

theorem isSome_output?_iff {pin : OutputPin} : (l.output? pin).isSome ↔ pin ∈ l.outputPins := by
  cases l <;> cases pin <;> simp [output?, outputPins]

end Logic

namespace Circuit

variable {c c' : Circuit}

/-! ## Properties of parts -/

/-- Every device has a property. -/
def Every (P : Logic → Prop) (c : Circuit) : Prop := ∀ d ∈ c.devices, P d.logic

namespace Every

variable {P : Logic → Prop}

theorem mapLogic {f : Logic → Logic} (h : c.Every P) (hf : ∀ {l}, P l → P (f l)) :
    (c.mapLogic f).Every P := by
  intro e he
  obtain ⟨d, hd, rfl⟩ := List.mem_map.1 he
  exact hf (h d hd)

theorem modify {f : Logic → Logic} {id : NameId} (h : c.Every P)
    (hf : ∀ d ∈ c.devices, d.id = id → P (f d.logic)) : (c.modify id f).Every P := by
  intro e he
  obtain ⟨d, hd, rfl⟩ := List.mem_map.1 he
  split
  · exact hf d hd ‹_›
  · exact h d hd

/-- What the three parts of a cycle keep is kept by a cycle, whether it comes to rest or not. -/
theorem cycle (hrefresh : ∀ read {l}, P l → P (Logic.refresh read l))
    (hlatch : ∀ read {l}, P l → P (Logic.latch read l)) (htick : ∀ {l}, P l → P (Logic.tick l))
    (h : c.Every P) : c.cycle.2.Every P :=
  cycle_preserves (P := Every P) (fun c _ h => h.modify fun d hd _ => hrefresh c.read (h d hd))
    (fun c h => h.mapLogic (hlatch c.read)) (fun _ h => h.mapLogic htick) h

end Every

/-! ## Outputs -/

theorem hasTerminal_iff {t : Terminal} :
    c.hasTerminal t = true ↔ ∃ d, c.find? t.device = some d ∧ t.pin ∈ d.logic.outputPins := by
  simp [hasTerminal, Option.any_eq_true, Device.hasOutput]

theorem hasTerminal_of_agreeOn (h : AgreeOn Logic.outputPins c c') (t : Terminal) :
    c'.hasTerminal t = c.hasTerminal t := by
  rw [Bool.eq_iff_iff, hasTerminal_iff, hasTerminal_iff]
  constructor
  · rintro ⟨d', hd', hpin⟩
    obtain ⟨d, hd, hpins⟩ := h.symm.find? hd'
    exact ⟨d, hd, by rwa [hpins]⟩
  · rintro ⟨d, hd, hpin⟩
    obtain ⟨d', hd', hpins⟩ := h.find? hd
    exact ⟨d', hd', by rwa [hpins]⟩

theorem hasTerminal_of_bare_eq (h : c'.bare = c.bare) (t : Terminal) :
    c'.hasTerminal t = c.hasTerminal t := by
  refine hasTerminal_of_agreeOn ((AgreeOn.of_bare_eq h).coarsen fun {l l'} hl => ?_) t
  rw [← Logic.outputPins_bare, hl, Logic.outputPins_bare]

theorem terminals_of_bare_eq (h : c'.bare = c.bare) : c'.terminals = c.terminals := by
  have hbare (c : Circuit) : c.bare.terminals = c.terminals := by
    simp only [terminals, bare, mapLogic, List.flatMap_map]
    refine List.flatMap_congr fun d _ => ?_
    rw [Device.terminals, Device.mapLogic, Logic.outputPins_bare, Device.terminals]
  rw [← hbare, h, hbare]

theorem exists_output?_of_hasTerminal {t : Terminal} (h : c.hasTerminal t = true) :
    ∃ level, c.output? t = some level := by
  obtain ⟨d, hd, hpin⟩ := hasTerminal_iff.1 h
  obtain ⟨level, hlevel⟩ := Option.isSome_iff_exists.1 (Logic.isSome_output?_iff.2 hpin)
  exact ⟨level, by rw [output?, hd]; exact hlevel⟩

theorem find?_of_addDevice {id other : NameId} {d : Device} {kind : DeviceKind}
    {parameter : Option UInt32} (hadd : c.addDevice other kind parameter = .ok c')
    (h : c.find? id = some d) : c'.find? id = some d := by
  obtain ⟨-, l, -, rfl⟩ := addDevice_eq_ok_iff.1 hadd
  rw [find?] at h ⊢
  rw [List.find?_append, h]
  rfl

theorem hasTerminal_addDevice {id : NameId} {kind : DeviceKind} {parameter : Option UInt32}
    (hadd : c.addDevice id kind parameter = .ok c') {t : Terminal}
    (h : c.hasTerminal t = true) : c'.hasTerminal t = true := by
  obtain ⟨d, hd, hpin⟩ := hasTerminal_iff.1 h
  exact hasTerminal_iff.2 ⟨d, find?_of_addDevice hadd hd, hpin⟩

theorem hasTerminal_connect {source : Terminal} {target : NameId} {pin : InputPin}
    (hconnect : c.connect source target pin = .ok c') (t : Terminal) :
    c'.hasTerminal t = c.hasTerminal t := by
  rw [eq_modify_of_connect hconnect]
  refine hasTerminal_of_agreeOn (fun id => ?_) t
  rw [find?_modify]
  split
  · cases c.find? id <;> simp [Device.mapLogic]
  · rfl

theorem mem_terminals_iff (hn : c.ids.Nodup) {t : Terminal} :
    t ∈ c.terminals ↔ c.hasTerminal t = true := by
  rw [hasTerminal_iff, terminals, List.mem_flatMap]
  constructor
  · rintro ⟨d, hd, ht⟩
    obtain ⟨pin, hpin, rfl⟩ := List.mem_map.1 ht
    exact ⟨d, (find?_eq_some_iff hn).2 ⟨hd, rfl⟩, hpin⟩
  · rintro ⟨d, hd, hpin⟩
    obtain ⟨hd, hid⟩ := (find?_eq_some_iff hn).1 hd
    exact ⟨d, hd, List.mem_map.2 ⟨t.pin, hpin, by rw [hid]⟩⟩

theorem nodup_terminals (hn : c.ids.Nodup) : c.terminals.Nodup := by
  have hpins (l : Logic) : l.outputPins.Nodup := by
    cases l <;> simp [Logic.outputPins]
  refine List.nodup_flatMap.2 ⟨fun d _ => ?_, ?_⟩
  · exact (hpins d.logic).map fun pin pin' h => congrArg Terminal.pin h
  · rw [ids, List.Nodup, List.pairwise_map] at hn
    refine hn.imp fun {d d'} hne t ht ht' => hne ?_
    obtain ⟨pin, -, rfl⟩ := List.mem_map.1 ht
    obtain ⟨pin', -, h⟩ := List.mem_map.1 ht'
    exact (congrArg Terminal.device h).symm

/-! ## Well-formed circuits -/

structure WellFormed (c : Circuit) : Prop where
  /-- No two devices have the same number. -/
  nodup : c.ids.Nodup
  inRange : c.Every Logic.InRange
  /-- Every driver is an output of a device. -/
  drivers : ∀ d ∈ c.devices, ∀ pin t, (pin, some t) ∈ d.inputs → c.hasTerminal t = true

theorem wellFormed_empty (passLimit : Nat) : (Circuit.empty passLimit).WellFormed :=
  ⟨List.nodup_nil, fun _ hd => absurd hd List.not_mem_nil, fun _ hd => absurd hd List.not_mem_nil⟩

namespace WellFormed

theorem addDevice {id : NameId} {kind : DeviceKind} {parameter : Option UInt32}
    (h : c.WellFormed) (hadd : c.addDevice id kind parameter = .ok c') : c'.WellFormed := by
  obtain ⟨hnew, l, hl, rfl⟩ := addDevice_eq_ok_iff.1 hadd
  have hpower : l.PowerOn := Logic.powerOn_of_ofKind hl
  refine ⟨?_, fun d hd => ?_, fun d hd pin t hin => ?_⟩
  · rw [(ids_addDevice hadd).1, List.nodup_append']
    exact ⟨h.nodup, List.nodup_singleton id,
      fun x hx hx' => hnew (List.mem_singleton.1 hx' ▸ hx)⟩
  · rcases List.mem_append.1 hd with hd | hd
    · exact h.inRange d hd
    · rw [List.mem_singleton.1 hd]
      exact hpower.inRange
  · rcases List.mem_append.1 hd with hd | hd
    · exact hasTerminal_addDevice hadd (h.drivers d hd pin t hin)
    · rw [List.mem_singleton.1 hd] at hin
      cases hpower.inputs_open hin

theorem connect {source : Terminal} {target : NameId} {pin : InputPin} (h : c.WellFormed)
    (hconnect : c.connect source target pin = .ok c') : c'.WellFormed := by
  have hsame := hasTerminal_connect hconnect
  obtain ⟨hsource, -, rfl⟩ := connect_eq_ok_iff.1 hconnect
  refine ⟨?_, h.inRange.modify fun d hd _ => (h.inRange d hd).drive pin source, ?_⟩
  · rw [ids_modify]
    exact h.nodup
  intro e he pin' t hin
  rw [hsame]
  obtain ⟨d, hd, rfl⟩ := List.mem_map.1 he
  split at hin
  · rcases Logic.mem_inputs_drive hin with hin | ht
    · exact h.drivers d hd pin' t hin
    · rw [Option.some.inj ht]
      exact hsource
  · exact h.drivers d hd pin' t hin

/-- The same wiring in another state is well-formed if its clocks are within their half-periods. -/
theorem of_bare_eq (h : c.WellFormed) (hb : c'.bare = c.bare) (hrange : c'.Every Logic.InRange) :
    c'.WellFormed := by
  have hn : c'.ids.Nodup := by
    rw [(sameShape_of_bare_eq hb).1]
    exact h.nodup
  refine ⟨hn, hrange, fun d' hd' pin t hin => ?_⟩
  have hfind := (find?_eq_some_iff hn).2 ⟨hd', rfl⟩
  obtain ⟨d, hd, hbare⟩ := (AgreeOn.of_bare_eq hb).symm.find? hfind
  rw [Device.inputs, ← Logic.inputs_bare, ← hbare, Logic.inputs_bare] at hin
  rw [hasTerminal_of_bare_eq hb]
  exact h.drivers d (List.mem_of_find?_eq_some hd) pin t hin

theorem setSwitch {id : NameId} {closed : Bool} (h : c.WellFormed)
    (hset : c.setSwitch id closed = .ok c') : c'.WellFormed := by
  have hb := bare_setSwitch h.nodup hset
  obtain ⟨-, rfl⟩ := setSwitch_eq_ok_iff.1 hset
  exact h.of_bare_eq hb (h.inRange.modify fun _ _ _ => trivial)

theorem reset (h : c.WellFormed) : c.reset.WellFormed :=
  h.of_bare_eq (bare_reset c) (h.inRange.mapLogic Logic.InRange.reset)

theorem cycle (h : c.WellFormed) : c.cycle.2.WellFormed :=
  h.of_bare_eq (bare_cycle c) (h.inRange.cycle (fun read _ => .refresh read)
    (fun read _ => .latch read) .tick)

/-! ## What follows -/

/-- The number after that of a clock fits into 32 bits. -/
theorem counter_lt (h : c.WellFormed) {d : Device} {k : Clock} (hd : d ∈ c.devices)
    (hk : d.logic = .clock k) : k.counter.toNat + 1 < UInt32.size := by
  have hrange := h.inRange d hd
  rw [hk] at hrange
  have hlt : k.counter.toNat < k.halfPeriod.toNat := UInt32.lt_iff_toNat_lt.1 hrange.2
  have hmax : k.halfPeriod.toNat < UInt32.size := k.halfPeriod.toNat_lt
  omega

/-- Whatever is in the devices, an input that is driven reads the level of an output. -/
theorem exists_output?_of_bare_eq (h : c.WellFormed) (hb : c'.bare = c.bare) {d : Device}
    {pin : InputPin} {t : Terminal} (hd : d ∈ c'.devices) (hin : (pin, some t) ∈ d.inputs) :
    ∃ level, c'.output? t = some level := by
  have hn : c'.ids.Nodup := by
    rw [(sameShape_of_bare_eq hb).1]
    exact h.nodup
  have hfind := (find?_eq_some_iff hn).2 ⟨hd, rfl⟩
  obtain ⟨e, he, hbare⟩ := (AgreeOn.of_bare_eq hb).symm.find? hfind
  rw [Device.inputs, ← Logic.inputs_bare, ← hbare, Logic.inputs_bare] at hin
  refine exists_output?_of_hasTerminal ?_
  rw [hasTerminal_of_bare_eq hb]
  exact h.drivers e (List.mem_of_find?_eq_some he) pin t hin

theorem position_lt {id : NameId} (h : id ∈ c.ids) : c.position id < c.size := by
  refine List.findIdx_lt_length_of_exists ?_
  obtain ⟨d, hd, rfl⟩ := List.mem_map.1 h
  exact ⟨d, hd, by simp⟩

theorem edge_lt (h : c.WellFormed) (names : NameTable) {e : Topology.Edge}
    (he : e ∈ (c.topology names).edges) :
    e.source < (c.topology names).nodes.length ∧ e.target < (c.topology names).nodes.length := by
  have hnodes : (c.topology names).nodes.length = c.size := by simp [topology, size]
  rw [hnodes]
  simp only [topology, List.mem_flatMap, List.mem_filterMap, Option.map_eq_some_iff] at he
  obtain ⟨d, hd, ⟨pin, driver⟩, hin, t, rfl, rfl⟩ := he
  obtain ⟨s, hs, -⟩ := hasTerminal_iff.1 (h.drivers d hd pin t hin)
  have hsource : t.device ∈ c.ids := by
    rw [← id_of_find? hs]
    exact List.mem_map_of_mem (List.mem_of_find?_eq_some hs)
  exact ⟨position_lt hsource, position_lt (List.mem_map_of_mem hd)⟩

end WellFormed

end Circuit

end Breadboard
