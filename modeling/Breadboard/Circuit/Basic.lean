import Breadboard.Device.Basic

/-!
# Circuits

A circuit is a list of devices in the order in which they were declared, each with its own
number. Connections are kept at the driven input, so an output may drive any number of
inputs and an input has at most one driver. An input without a driver reads as low.

* `find?_modify`: replacing the logic of one device shows at that device alone.
* `ids_modify`, `ids_mapLogic`: devices keep their numbers and their order.
-/
namespace Breadboard

structure Circuit where
  /-- The devices, in the order of declaration. -/
  devices : List Device := []
  /-- The passes that a cycle may take to settle, unless the circuit itself needs more. -/
  passLimit : Nat
  deriving DecidableEq, Repr

/-- What can go wrong when an input is connected. -/
inductive WiringError where
  | deviceAbsent (id : NameId)
  | outputAbsent (id : NameId) (pin : OutputPin)
  | inputAbsent (id : NameId) (pin : InputPin)
  /-- The input has a driver already. -/
  | inputConnected (id : NameId) (pin : InputPin)
  deriving DecidableEq, Repr

def WiringError.message : WiringError → String
  | deviceAbsent id => s!"Device {id} does not exist"
  | outputAbsent id pin => s!"Device {id} has no output {pin.label}"
  | inputAbsent id pin => s!"Device {id} has no input {pin.name}"
  | inputConnected id pin => s!"Input {pin.name} of device {id} is already connected"

namespace Circuit

def empty (passLimit : Nat) : Circuit := { passLimit }

def size (c : Circuit) : Nat := c.devices.length

def ids (c : Circuit) : List NameId := c.devices.map (·.id)

/-! ## Looking things up -/

/-- The device with a given number. -/
def find? (c : Circuit) (id : NameId) : Option Device := c.devices.find? (·.id == id)

def contains (c : Circuit) (id : NameId) : Bool := c.devices.any (·.id == id)

/-- The numbers of the devices of one kind, in order. -/
def ofKind (c : Circuit) (kind : DeviceKind) : List NameId :=
  (c.devices.filter (·.kind == kind)).map (·.id)

/-- Every output of the circuit, in order. -/
def terminals (c : Circuit) : List Terminal := c.devices.flatMap Device.terminals

def hasTerminal (c : Circuit) (t : Terminal) : Bool := (c.find? t.device).any (·.hasOutput t.pin)

def output? (c : Circuit) (t : Terminal) : Option Bool :=
  (c.find? t.device).bind (·.output? t.pin)

/-- The level that an input reads from its driver. -/
def read (c : Circuit) (driver : Option Terminal) : Bool := (driver.bind c.output?).getD false

def levels (c : Circuit) : List Bool :=
  c.devices.flatMap fun d => d.logic.outputPins.filterMap d.output?

/-- The inputs that no output drives, in order. -/
def undriven (c : Circuit) : List (NameId × InputPin) :=
  c.devices.flatMap fun d =>
    (d.inputs.filter (·.2.isNone)).map fun (pin, _) => (d.id, pin)

/-! ## Changing things -/

def mapLogic (c : Circuit) (f : Logic → Logic) : Circuit :=
  { c with devices := c.devices.map (·.mapLogic f) }

def modify (c : Circuit) (id : NameId) (f : Logic → Logic) : Circuit :=
  { c with devices := c.devices.map fun d => if d.id = id then d.mapLogic f else d }

/-- Adds a device at the end, in the state in which the power comes on. -/
def addDevice (c : Circuit) (id : NameId) (kind : DeviceKind) (parameter : Option UInt32) :
    Except DeviceError Circuit :=
  if c.contains id then .error (.present id)
  else
    match Logic.ofKind kind parameter with
    | .ok logic => .ok { c with devices := c.devices ++ [{ id, logic }] }
    | .error e => .error e

/-- Drives an input from an output. The output is looked up first. -/
def connect (c : Circuit) (source : Terminal) (target : NameId) (pin : InputPin) :
    Except WiringError Circuit :=
  match c.find? source.device with
  | none => .error (.deviceAbsent source.device)
  | some driver =>
    if !driver.hasOutput source.pin then .error (.outputAbsent source.device source.pin)
    else
      match c.find? target with
      | none => .error (.deviceAbsent target)
      | some driven =>
        match driven.input? pin with
        | none => .error (.inputAbsent target pin)
        | some (some _) => .error (.inputConnected target pin)
        | some none => .ok (c.modify target (·.drive pin source))

def setSwitch (c : Circuit) (id : NameId) (closed : Bool) : Except DeviceError Circuit :=
  match c.find? id with
  | none => .error (.absent id)
  | some d =>
    match d.logic with
    | .switch _ => .ok (c.modify id fun _ => .switch closed)
    | _ => .error (.notSwitch id)

/-- Puts every device into the state in which the power comes on. -/
def reset (c : Circuit) : Circuit := c.mapLogic Logic.reset

/-! ## What a change leaves alone -/

@[simp]
theorem ids_mapLogic (c : Circuit) (f : Logic → Logic) : (c.mapLogic f).ids = c.ids := by
  simp [mapLogic, ids, Device.mapLogic, Function.comp_def]

@[simp]
theorem ids_modify (c : Circuit) (id : NameId) (f : Logic → Logic) :
    (c.modify id f).ids = c.ids := by
  simp only [modify, ids, List.map_map]
  refine List.map_congr_left fun d _ => ?_
  simp only [Function.comp_apply]
  split <;> rfl

@[simp]
theorem passLimit_mapLogic (c : Circuit) (f : Logic → Logic) :
    (c.mapLogic f).passLimit = c.passLimit := rfl

@[simp]
theorem passLimit_modify (c : Circuit) (id : NameId) (f : Logic → Logic) :
    (c.modify id f).passLimit = c.passLimit := rfl

theorem size_eq_length_ids (c : Circuit) : c.size = c.ids.length := by simp [size, ids]

theorem ids_map_devices (c : Circuit) (f : NameId → Logic → Logic) :
    ids { c with devices := c.devices.map fun d => d.mapLogic (f d.id) } = c.ids := by
  simp [ids, Device.mapLogic, Function.comp_def]

theorem find?_mapLogic (c : Circuit) (f : Logic → Logic) (id : NameId) :
    (c.mapLogic f).find? id = (c.find? id).map (·.mapLogic f) := by
  simp only [find?, mapLogic, List.find?_map]
  rfl

/-- What replaces the logic of a device may depend on its number. -/
theorem find?_map_devices (c : Circuit) (f : NameId → Logic → Logic) (id : NameId) :
    find? { c with devices := c.devices.map fun d => d.mapLogic (f d.id) } id =
      (c.find? id).map (·.mapLogic (f id)) := by
  have hmap : find? { c with devices := c.devices.map fun d => d.mapLogic (f d.id) } id =
      (c.find? id).map fun d => d.mapLogic (f d.id) := by
    simp only [find?, List.find?_map]
    rfl
  rw [hmap]
  refine Option.map_congr fun d hd => ?_
  rw [show d.id = id by simpa using List.find?_some hd]

/-- Replacing the logic of one device shows at that device alone. -/
theorem find?_modify (c : Circuit) (id other : NameId) (f : Logic → Logic) :
    (c.modify id f).find? other =
      if other = id then (c.find? other).map (·.mapLogic f) else c.find? other := by
  have keep (d : Device) : (if d.id = id then d.mapLogic f else d).id = d.id := by
    split <;> rfl
  simp only [find?, modify, List.find?_map, Function.comp_def, keep]
  cases h : c.devices.find? (·.id == other) with
  | none => simp
  | some d =>
    have hd : d.id = other := by simpa using List.find?_some h
    by_cases ho : other = id <;> simp [hd, ho]

theorem contains_iff_mem_ids {c : Circuit} {id : NameId} :
    c.contains id = true ↔ id ∈ c.ids := by
  simp [contains, ids]

theorem find?_eq_none_iff {c : Circuit} {id : NameId} : c.find? id = none ↔ id ∉ c.ids := by
  simp [find?, ids]

theorem id_of_find? {c : Circuit} {id : NameId} {d : Device} (h : c.find? id = some d) :
    d.id = id := by
  simpa using List.find?_some h

end Circuit

end Breadboard
