import Breadboard.Proofs.Board.Toggling
import Breadboard.Proofs.Names.Index

/-!
# Tables

A board as tables that are read and written step by step. The devices stand in one vector, and an
index has the place of each under its number; names have an index as well, and the traces stand
under their outputs. An action may stop at any step, and what has been written by then stays
written. So nothing but the order of its steps keeps an action that is refused from changing the
tables.

`Holds` relates tables to the board that they stand for, and `Refines` an action to the function of
the board that it stands for.

* `Holds.outcome_locate_of_some`: the index leads to the device that a search finds.
* `refines_addDevice`, `refines_connect`, `refines_setSwitch`, `refines_addProbe`, `refines_toggle`:
  each action gives the answer of its function, and if it is refused, the tables are as they were.
-/
namespace Breadboard

deriving instance Hashable for NameId
deriving instance Hashable for OutputPin
deriving instance Hashable for Terminal

structure Tables where
  names : IndexedTable := .empty
  /-- The devices, in the order of declaration. -/
  devices : Array Device := #[]
  /-- The place of each device, under its number. -/
  index : Std.HashMap NameId Nat := {}
  passLimit : Nat
  /-- The trace of each probe, under its output. -/
  traces : Std.HashMap Terminal Trace := {}

/-! ## Actions -/

/-- Why an action comes to no end. -/
inductive Stop (ε : Type) where
  | refused (error : ε)
  /-- The index leads to a place where there is no device. -/
  | outOfBounds

/-- Steps on tables. Where they stop, the tables are as the last step left them. -/
abbrev Action (ε α : Type) := ExceptT (Stop ε) (StateM Tables) α

namespace Action

variable {ε α β : Type}

/-- What an action comes to, and the tables afterwards. -/
def outcome (a : Action ε α) (x : Tables) : Except (Stop ε) α × Tables := (ExceptT.run a).run x

def refuse (error : ε) : Action ε α := throw (.refused error)

@[simp]
theorem outcome_pure (v : α) (x : Tables) : outcome (pure v : Action ε α) x = (.ok v, x) := rfl

@[simp]
theorem outcome_refuse (error : ε) (x : Tables) :
    outcome (refuse error : Action ε α) x = (.error (.refused error), x) := rfl

@[simp]
theorem outcome_get (x : Tables) : outcome (get : Action ε Tables) x = (.ok x, x) := rfl

@[simp]
theorem outcome_modify (f : Tables → Tables) (x : Tables) :
    outcome (modify f : Action ε PUnit) x = (.ok ⟨⟩, f x) := rfl

/-- One action after the other. If the first one stops, its changes are there nevertheless. -/
@[simp]
theorem outcome_bind (a : Action ε α) (f : α → Action ε β) (x : Tables) :
    outcome (a >>= f) x =
      match outcome a x with
      | (.ok v, x) => outcome (f v) x
      | (.error s, x) => (.error s, x) := by
  simp only [outcome, ExceptT.run_bind, StateT.run_bind]
  rcases (ExceptT.run a).run x with ⟨_ | v, x'⟩ <;> rfl

@[simp]
theorem outcome_map (f : α → β) (a : Action ε α) (x : Tables) :
    outcome (f <$> a) x = ((outcome a x).1.map f, (outcome a x).2) := by
  rw [map_eq_pure_bind, outcome_bind]
  rcases outcome a x with ⟨_ | v, x'⟩ <;> rfl

end Action

namespace Tables

open Action

variable {ε α : Type}

def circuit (x : Tables) : Circuit := ⟨x.devices.toList, x.passLimit⟩

def locate (id : NameId) : Action ε (Option (Nat × Device)) := do
  let x ← get
  match x.index[id]? with
  | none => return none
  | some i =>
    match x.devices[i]? with
    | some d => return some (i, d)
    | none => throw .outOfBounds

/-- Replaces what is in the device at a place. -/
def write (i : Nat) (f : Logic → Logic) : Action ε Unit :=
  modify fun x => { x with devices := x.devices.modify i (·.mapLogic f) }

def addDevice (id : NameId) (kind : DeviceKind) (parameter : Option UInt32) :
    Action DeviceError Unit := do
  if (← get).index.contains id then refuse (.present id)
  match Logic.ofKind kind parameter with
  | .error e => refuse e
  | .ok logic =>
    modify fun x => { x with index := x.index.insert id x.devices.size }
    modify fun x => { x with devices := x.devices.push { id, logic } }

def connect (source : Terminal) (target : NameId) (pin : InputPin) : Action WiringError Unit := do
  let some (_, driver) ← locate source.device | refuse (.deviceAbsent source.device)
  if !driver.hasOutput source.pin then refuse (.outputAbsent source.device source.pin)
  let some (i, driven) ← locate target | refuse (.deviceAbsent target)
  let some slot := driven.input? pin | refuse (.inputAbsent target pin)
  if slot.isSome then refuse (.inputConnected target pin)
  write i (·.drive pin source)

def setSwitch (id : NameId) (closed : Bool) : Action DeviceError Unit := do
  let some (i, d) ← locate id | refuse (.absent id)
  match d.logic with
  | .switch _ => write i fun _ => .switch closed
  | _ => refuse (.notSwitch id)

def addProbe (t : Terminal) (blanks : Nat) : Action ProbeError Unit := do
  let some (_, d) ← locate t.device | refuse (.deviceAbsent t.device)
  if !d.hasOutput t.pin then refuse (.notOutput t.device t.pin)
  if (← get).traces.contains t then refuse (.present t.device t.pin)
  modify fun x => { x with traces := x.traces.insert t (Array.replicate blanks .blank) }

/-- Takes the probe off an output, and says whether there was one. -/
def removeProbe (t : Terminal) : Action ε Bool := do
  let probed := (← get).traces.contains t
  modify fun x => { x with traces := x.traces.erase t }
  return probed

/-- The output that a signal name stands for, whether or not there is such an output. -/
def terminal? (x : Tables) (name : String) : Option Terminal :=
  match Text.cutAt? '.' name with
  | some (device, pin) =>
    (OutputPin.ofName? pin).bind fun pin => (x.names.query? device).map fun id => ⟨id, pin⟩
  | none => (x.names.query? name).map fun id => ⟨id, .out⟩

/-- Takes the probe off a signal or puts one on, and says whether it is probed afterwards. -/
def toggle (name : String) (blanks : Nat) : Action ProbeError Bool := do
  let some t := (← get).terminal? name | refuse (.unknownSignal name)
  let some (_, d) ← locate t.device | refuse (.unknownSignal name)
  if !d.hasOutput t.pin then refuse (.unknownSignal name)
  if ← removeProbe t then return false
  addProbe t blanks
  return true

/-! ## Tables and boards -/

/-- The tables stand for a board. -/
structure Holds (x : Tables) (b : Board) : Prop where
  names : x.names.Agrees b.names
  circuit : x.circuit = b.circuit
  /-- The index has the places of the devices, and nothing else. -/
  index : ∀ id i, x.index[id]? = some i ↔ (x.devices[i]?).map Device.id = some id
  traces : ∀ t, x.traces[t]? = b.probes.trace? t

/-- An action has the result of a function of the board. If that is an error, the tables are as they
were; otherwise they stand for the board that the function makes, and the effect is seen in them. -/
def Refines (a : Action ε α) (x : Tables) (result : Except ε (α × Board))
    (effect : α → Tables → Prop) : Prop :=
  match result with
  | .ok (v, b') => ∃ x', a.outcome x = (.ok v, x') ∧ x'.Holds b' ∧ effect v x'
  | .error e => a.outcome x = (.error (.refused e), x)

/-- The second tables are the first ones with the probe on one output taken off or put on. -/
structure Flipped (t : Terminal) (blanks : Nat) (probed : Bool) (x x' : Tables) : Prop where
  frame : x' = { x with traces := x'.traces }
  status : probed = !x.traces.contains t
  trace : x'.traces[t]? = if probed then some (Array.replicate blanks .blank) else none
  others : ∀ other, other ≠ t → x'.traces[other]? = x.traces[other]?

variable {x : Tables} {b : Board}

theorem holds_empty (passLimit : Nat) : Holds { passLimit } (.empty passLimit) where
  names := .empty
  circuit := rfl
  index := by simp
  traces := by simp [Board.empty, Probes.empty, Probes.trace?]

namespace Holds

theorem mem_devices (h : x.Holds b) {d : Device} : d ∈ b.circuit.devices ↔ d ∈ x.devices := by
  rw [← h.circuit]
  exact Array.mem_toList_iff

theorem mem_index_iff (h : x.Holds b) {id : NameId} : id ∈ x.index ↔ id ∈ b.circuit.ids := by
  rw [Std.HashMap.mem_iff_isSome_getElem?, Option.isSome_iff_exists, Circuit.ids, List.mem_map]
  constructor
  · rintro ⟨i, hi⟩
    obtain ⟨d, hd, hid⟩ := Option.map_eq_some_iff.1 ((h.index id i).1 hi)
    exact ⟨d, h.mem_devices.2 (Array.mem_of_getElem? hd), hid⟩
  · rintro ⟨d, hd, hid⟩
    obtain ⟨i, hi⟩ := Array.getElem?_of_mem (h.mem_devices.1 hd)
    exact ⟨i, (h.index id i).2 (by rw [hi, Option.map_some, hid])⟩

theorem mem_traces_iff (h : x.Holds b) {t : Terminal} :
    t ∈ x.traces ↔ b.probes.contains t = true := by
  rw [Std.HashMap.mem_iff_isSome_getElem?, h.traces, Probes.contains_eq_isSome_trace?]

theorem terminal?_eq (h : x.Holds b) (name : String) : x.terminal? name = b.terminal? name := by
  have hquery (word : String) : x.names.query? word = b.names.query? word := h.names.ids word
  rw [terminal?, Board.terminal?]
  cases Text.cutAt? '.' name <;> simp [hquery]

theorem outcome_locate_of_none (h : x.Holds b) {id : NameId} (hfind : b.circuit.find? id = none) :
    outcome (locate id : Action ε _) x = (.ok none, x) := by
  have hnone : x.index[id]? = none := by
    refine Std.HashMap.getElem?_eq_none fun hmem => ?_
    exact Circuit.find?_eq_none_iff.1 hfind (h.mem_index_iff.1 hmem)
  simp [locate, hnone]

/-- The index leads to the device that a search finds. -/
theorem outcome_locate_of_some (h : x.Holds b) {id : NameId} {d : Device}
    (hfind : b.circuit.find? id = some d) :
    ∃ i, x.devices[i]? = some d ∧ outcome (locate id : Action ε _) x = (.ok (some (i, d)), x) := by
  have hmem : d ∈ x.devices := h.mem_devices.1 (List.mem_of_find?_eq_some hfind)
  obtain ⟨i, hi⟩ := Array.getElem?_of_mem hmem
  have hplace : x.index[id]? = some i := by
    rw [h.index, hi, Option.map_some, Circuit.id_of_find? hfind]
  exact ⟨i, hi, by simp [locate, hplace, hi]⟩

/-! ### Devices -/

/-- Devices with the same numbers in the same places are found by the same index. -/
theorem replace (h : x.Holds b) {devices : Array Device} {circuit : Circuit}
    (hcircuit : circuit = ⟨devices.toList, x.passLimit⟩) (hids : circuit.ids = b.circuit.ids) :
    Holds { x with devices } { b with circuit } where
  names := h.names
  circuit := hcircuit.symm
  index id i := by
    have hplaces (ds : Array Device) : (ds[i]?).map Device.id = (ds.toList.map Device.id)[i]? := by
      rw [List.getElem?_map, Array.getElem?_toList]
    have hsame : devices.toList.map Device.id = x.devices.toList.map Device.id := by
      rw [← h.circuit, hcircuit] at hids
      exact hids
    rw [h.index, hplaces, hplaces, hsame]
  traces := h.traces

/-- What is written at the place of a device is in that device alone. -/
theorem write (h : x.Holds b) {i : Nat} {d : Device} (hi : x.devices[i]? = some d)
    (f : Logic → Logic) :
    Holds { x with devices := x.devices.modify i (·.mapLogic f) }
      { b with circuit := b.circuit.modify d.id f } := by
  refine h.replace ?_ (Circuit.ids_modify _ _ _)
  rw [Circuit.modify, ← h.circuit, Tables.circuit, Circuit.mk.injEq]
  refine ⟨List.ext_getElem? fun j => ?_, rfl⟩
  rw [List.getElem?_map, Array.toList_modify, List.getElem?_modify, Array.getElem?_toList]
  cases hj : x.devices[j]? with
  | none => rfl
  | some e =>
    have hplace : e.id = d.id ↔ i = j := by
      constructor
      · intro hid
        have hplace := (h.index d.id i).2 (by rw [hi, Option.map_some])
        rw [(h.index d.id j).2 (by rw [hj, Option.map_some, hid])] at hplace
        exact (Option.some.inj hplace).symm
      · rintro rfl
        rw [hi] at hj
        rw [Option.some.inj hj]
    by_cases hij : i = j <;> simp [hplace, hij]

/-- A device with a new number is put behind the others, and its place into the index. -/
theorem push (h : x.Holds b) {d : Device} (hnew : d.id ∉ b.circuit.ids) :
    Holds { x with devices := x.devices.push d, index := x.index.insert d.id x.devices.size }
      { b with circuit := { b.circuit with devices := b.circuit.devices ++ [d] } } where
  names := h.names
  circuit := by rw [← h.circuit, Tables.circuit, Array.toList_push]; rfl
  index id i := by
    rw [Std.HashMap.getElem?_insert, Array.getElem?_push]
    by_cases hid : d.id = id
    · rw [if_pos (beq_iff_eq.2 hid)]
      by_cases hi : i = x.devices.size
      · simp [hi, hid]
      · rw [if_neg hi, Option.some.injEq]
        refine iff_of_false (Ne.symm hi) fun hsome => hnew ?_
        rw [hid, ← h.mem_index_iff, Std.HashMap.mem_iff_isSome_getElem?, (h.index id i).2 hsome]
        rfl
    · rw [if_neg (by simpa using hid), h.index]
      by_cases hi : i = x.devices.size
      · simp [hi, hid]
      · rw [if_neg hi]
  traces := h.traces

/-! ### Traces -/

/-- Other traces stand for other probes. -/
theorem traced (h : x.Holds b) {traces : Std.HashMap Terminal Trace} {probes : Probes}
    (htraces : ∀ t, traces[t]? = probes.trace? t) :
    Holds { x with traces } { b with probes } :=
  ⟨h.names, h.circuit, h.index, htraces⟩

theorem remove (h : x.Holds b) (t : Terminal) :
    Holds { x with traces := x.traces.erase t } { b with probes := b.probes.remove t } := by
  refine h.traced fun other => ?_
  rw [Std.HashMap.getElem?_erase, h.traces, Probes.trace?_remove]
  by_cases hother : other = t <;> simp [hother, Ne.symm]

theorem remove_of_unprobed (h : x.Holds b) {t : Terminal} (hoff : b.probes.contains t = false) :
    Holds { x with traces := x.traces.erase t } b := by
  refine h.traced fun other => ?_
  rw [Probes.contains_eq_isSome_trace?, Option.isSome_eq_false_iff, Option.isNone_iff_eq_none]
    at hoff
  rw [Std.HashMap.getElem?_erase, h.traces]
  by_cases hother : other = t <;> simp [hother, hoff, Ne.symm]

end Holds

/-! ## What actions come to -/

variable {source t : Terminal} {id target : NameId} {pin : InputPin}

theorem refines_addDevice (h : x.Holds b) (id : NameId) (kind : DeviceKind)
    (parameter : Option UInt32) :
    Refines (addDevice id kind parameter) x
      ((b.circuit.addDevice id kind parameter).map fun circuit => ((), { b with circuit }))
      fun _ x' => ∃ logic, Logic.ofKind kind parameter = .ok logic ∧ x' =
        { x with
          devices := x.devices.push { id, logic }, index := x.index.insert id x.devices.size } := by
  unfold Refines addDevice Circuit.addDevice
  by_cases hid : id ∈ b.circuit.ids
  · have hindex : id ∈ x.index := h.mem_index_iff.2 hid
    simp [hindex, Circuit.contains_iff_mem_ids.2 hid, Except.map]
  · have hindex : id ∉ x.index := fun hmem => hid (h.mem_index_iff.1 hmem)
    have hnew : b.circuit.contains id = false := by
      rwa [Bool.eq_false_iff, ne_eq, Circuit.contains_iff_mem_ids]
    cases hl : Logic.ofKind kind parameter with
    | error e => simp [hindex, hnew, Except.map]
    | ok logic =>
      simp only [hnew, Except.map, Bool.false_eq_true, if_false]
      exact ⟨_, by simp [hindex], h.push (d := ⟨id, logic⟩) hid, logic, rfl, rfl⟩

theorem refines_connect (h : x.Holds b) (source : Terminal) (target : NameId) (pin : InputPin) :
    Refines (connect source target pin) x
      ((b.circuit.connect source target pin).map fun circuit => ((), { b with circuit }))
      fun _ x' => x' = { x with devices := x'.devices } := by
  unfold Refines connect Circuit.connect
  cases hsource : b.circuit.find? source.device with
  | none => simp [h.outcome_locate_of_none hsource, Except.map]
  | some driver =>
    obtain ⟨_, -, hdriver⟩ := h.outcome_locate_of_some (ε := WiringError) hsource
    cases hout : driver.hasOutput source.pin with
    | false => simp [hdriver, hout, Except.map]
    | true =>
      cases htarget : b.circuit.find? target with
      | none => simp [hdriver, hout, h.outcome_locate_of_none htarget, Except.map]
      | some driven =>
        obtain ⟨i, hi, hdriven⟩ := h.outcome_locate_of_some (ε := WiringError) htarget
        rcases hslot : driven.input? pin with _ | _ | _
        · simp [hdriver, hout, hdriven, hslot, Except.map]
        · have hwrite := h.write hi (·.drive pin source)
          rw [Circuit.id_of_find? htarget] at hwrite
          simp only [hout, hslot, Except.map, Bool.not_true, Bool.false_eq_true, if_false]
          exact ⟨_, by simp [hdriver, hout, hdriven, hslot, write], hwrite, rfl⟩
        · simp [hdriver, hout, hdriven, hslot, Except.map]

theorem refines_setSwitch (h : x.Holds b) (id : NameId) (closed : Bool) :
    Refines (setSwitch id closed) x
      ((b.circuit.setSwitch id closed).map fun circuit => ((), { b with circuit }))
      fun _ x' => x' = { x with devices := x'.devices } := by
  unfold Refines setSwitch Circuit.setSwitch
  cases hid : b.circuit.find? id with
  | none => simp [h.outcome_locate_of_none hid, Except.map]
  | some d =>
    obtain ⟨i, hi, hplace⟩ := h.outcome_locate_of_some (ε := DeviceError) hid
    cases hl : d.logic with
    | switch old =>
      have hwrite := h.write hi fun _ => .switch closed
      rw [Circuit.id_of_find? hid] at hwrite
      simp only [hl, Except.map]
      exact ⟨_, by simp [hplace, hl, write], hwrite, rfl⟩
    | gate | clock | dtype => simp [hplace, hl, Except.map]

theorem refines_addProbe (h : x.Holds b) (t : Terminal) (blanks : Nat) :
    Refines (addProbe t blanks) x
      ((b.probes.add b.circuit t blanks).map fun probes => ((), { b with probes }))
      fun _ x' => x' = { x with traces := x.traces.insert t (Array.replicate blanks .blank) } := by
  have htraces := h.mem_traces_iff (t := t)
  unfold Refines addProbe Probes.add
  cases hdevice : b.circuit.find? t.device with
  | none => simp [h.outcome_locate_of_none hdevice, Except.map]
  | some d =>
    obtain ⟨_, -, hplace⟩ := h.outcome_locate_of_some (ε := ProbeError) hdevice
    cases hout : d.hasOutput t.pin with
    | false => simp [hplace, hout, Except.map]
    | true =>
      cases hon : b.probes.contains t with
      | true => simp [hplace, hout, htraces, hon, Except.map]
      | false =>
        have hexists : b.circuit.hasTerminal t = true := by
          rw [Circuit.hasTerminal, hdevice, Option.any_some, hout]
        have hadd : b.probes.add b.circuit t blanks = .ok _ :=
          Probes.add_eq_ok_iff.2 ⟨hexists, hon, rfl⟩
        simp only [hout, Except.map, Bool.not_true, Bool.false_eq_true, if_false]
        refine ⟨_, by simp [hplace, hout, htraces, hon], h.traced fun other => ?_, rfl⟩
        rw [Std.HashMap.getElem?_insert, h.traces, Probes.trace?_add hadd]
        by_cases hother : other = t <;> simp [hother, Ne.symm]

theorem outcome_removeProbe (t : Terminal) (x : Tables) :
    outcome (removeProbe t : Action ε Bool) x =
      (.ok (x.traces.contains t), { x with traces := x.traces.erase t }) := rfl

theorem Holds.outcome_toggle_of_unknown (h : x.Holds b) {name : String}
    (hunknown : ∀ t, b.terminal? name = some t → b.circuit.hasTerminal t = false) (blanks : Nat) :
    outcome (toggle name blanks) x = (.error (.refused (.unknownSignal name)), x) := by
  have hname := h.terminal?_eq name
  cases ht : b.terminal? name with
  | none => simp [toggle, hname, ht]
  | some t =>
    have hout := hunknown t ht
    rw [Circuit.hasTerminal] at hout
    cases hdevice : b.circuit.find? t.device with
    | none => simp [toggle, hname, ht, h.outcome_locate_of_none hdevice]
    | some d =>
      obtain ⟨_, -, hplace⟩ := h.outcome_locate_of_some (ε := ProbeError) hdevice
      rw [hdevice, Option.any_some] at hout
      simp [toggle, hname, ht, hplace, hout]

/-- The probe is taken off before another one is put on. -/
theorem Holds.outcome_toggle_of_output (h : x.Holds b) {name : String}
    (ht : b.terminal? name = some t) (hout : b.circuit.hasTerminal t = true) (blanks : Nat) :
    outcome (toggle name blanks) x =
      if b.probes.contains t then (.ok false, { x with traces := x.traces.erase t })
      else outcome (do addProbe t blanks; return true) { x with traces := x.traces.erase t } := by
  have hname := (h.terminal?_eq name).trans ht
  rw [Circuit.hasTerminal, Option.any_eq_true] at hout
  obtain ⟨d, hdevice, hpin⟩ := hout
  obtain ⟨_, -, hplace⟩ := h.outcome_locate_of_some (ε := ProbeError) hdevice
  cases hon : b.probes.contains t <;>
    simp [toggle, hname, hplace, hpin, outcome_removeProbe, h.mem_traces_iff, hon]

theorem refines_toggle (h : x.Holds b) (name : String) (blanks : Nat) :
    Refines (toggle name blanks) x (b.toggle name blanks) fun probed x' =>
      ∃ t, x.terminal? name = some t ∧ Flipped t blanks probed x x' := by
  unfold Refines
  rcases b.unknown_or_exists_output name with hunknown | ⟨t, ht, hout⟩
  · rw [Board.toggle_of_unknown hunknown]
    exact h.outcome_toggle_of_unknown hunknown blanks
  have hname := (h.terminal?_eq name).trans ht
  have houtcome := h.outcome_toggle_of_output ht hout blanks
  have hlost {other : Terminal} (hne : other ≠ t) :
      (x.traces.erase t)[other]? = x.traces[other]? := by
    rw [Std.HashMap.getElem?_erase, if_neg (by simpa using hne.symm)]
  have htraces := h.mem_traces_iff (t := t)
  cases hon : b.probes.contains t with
  | true =>
    rw [hon, if_pos rfl] at houtcome
    rw [Board.toggle_of_probed ht hout hon]
    refine ⟨_, houtcome, h.remove t, t, hname, rfl, ?_, ?_, fun other => hlost⟩
    · simp [htraces, hon]
    · simp
  | false =>
    -- Nothing can be refused any more: there was no probe to be taken off.
    have hadd := refines_addProbe (h.remove_of_unprobed hon) t blanks
    have hprobes : b.probes.add b.circuit t blanks = .ok _ :=
      Probes.add_eq_ok_iff.2 ⟨hout, hon, rfl⟩
    rw [hprobes] at hadd
    obtain ⟨x', hx', hholds, heffect⟩ := hadd
    rw [Board.toggle_of_unprobed ht hout hon]
    refine ⟨x', ?_, hholds, t, hname, by rw [heffect], ?_, ?_, fun other hne => ?_⟩
    · simp [houtcome, hon, hx', Except.map]
    · simp [htraces, hon]
    · simp [heffect]
    · rw [heffect, Std.HashMap.getElem?_insert, if_neg (by simpa using hne.symm), hlost hne]

end Tables

end Breadboard
