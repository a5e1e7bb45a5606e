import Breadboard.Device.Kind

/-!
# Devices

A device is a part with a name. What it holds depends on its kind: a gate its inputs and
the output last computed, a switch its position, a clock its phase, and a flip-flop its four
inputs, the stored bit and the clock level it saw last.

A device knows nothing of the others: the functions that need the value of an input take it
from a reading `read`, which gives a level for each driver.
-/
namespace Breadboard

structure Gate where
  kind : GateKind
  /-- The driver of each input, if it has one. -/
  inputs : List (Option Terminal)
  output : Bool := false
  deriving DecidableEq, Repr

structure Clock where
  /-- Cycles from one change of the output to the next. -/
  halfPeriod : UInt32
  /-- Cycles since the last change. -/
  counter : UInt32 := 0
  output : Bool := false
  deriving DecidableEq, Repr

structure FlipFlop where
  clk : Option Terminal := none
  data : Option Terminal := none
  set : Option Terminal := none
  clear : Option Terminal := none
  /-- The level of `Q`. -/
  stored : Bool := false
  /-- The level of `CLK` when it was last sampled. -/
  lastClk : Bool := false
  deriving DecidableEq, Repr

/-- What a device of each kind holds. -/
inductive Logic where
  | gate (g : Gate)
  | switch (closed : Bool)
  | clock (c : Clock)
  | dtype (ff : FlipFlop)
  deriving DecidableEq, Repr

structure Device where
  id : NameId
  logic : Logic
  deriving DecidableEq, Repr

/-- What can go wrong when a device is added or a switch is set. -/
inductive DeviceError where
  | present (id : NameId)
  | absent (id : NameId)
  /-- The parameter is outside the range of the kind. -/
  | invalidParameter (kind : DeviceKind) (value : UInt32)
  /-- The kind needs a parameter. -/
  | missingParameter (kind : DeviceKind)
  | notSwitch (id : NameId)
  deriving DecidableEq, Repr

def DeviceError.message : DeviceError → String
  | present id => s!"Device {id} already exists"
  | absent id => s!"Device {id} does not exist"
  | invalidParameter kind value => s!"{value} is not a valid parameter for {kind.keyword}"
  | missingParameter kind => s!"{kind.keyword} requires a parameter"
  | notSwitch id => s!"Device {id} is not a switch"

/-! ## Parts -/

/-- One cycle of a clock: the output changes when the half-period is full. -/
def Clock.tick (c : Clock) : Clock :=
  let counter := c.counter + 1
  if counter ≥ c.halfPeriod then { c with counter := 0, output := !c.output }
  else { c with counter := counter }

namespace FlipFlop

/-- The level that `SET` and `CLEAR` force on the stored bit; `SET` wins. -/
def forced? (read : Option Terminal → Bool) (ff : FlipFlop) : Option Bool :=
  if read ff.set then some true
  else if read ff.clear then some false
  else none

/-- Whether the flip-flop stores `DATA` now: `CLK` has risen and nothing is forced. -/
def latches (read : Option Terminal → Bool) (ff : FlipFlop) : Bool :=
  read ff.clk && !ff.lastClk && (ff.forced? read).isNone

/-- Samples `CLK`, and stores `DATA` on a rising edge. -/
def latch (read : Option Terminal → Bool) (ff : FlipFlop) : FlipFlop :=
  { ff with
    stored := if ff.latches read then read ff.data else ff.stored
    lastClk := read ff.clk }

end FlipFlop

namespace Logic

/-- A part of the given kind as it is when the power comes on. -/
def ofKind (kind : DeviceKind) (parameter : Option UInt32) : Except DeviceError Logic :=
  let invalid (value : UInt32) : Except DeviceError Logic :=
    .error (.invalidParameter kind value)
  let gate (g : GateKind) (count : Nat) : Except DeviceError Logic :=
    .ok (.gate { kind := g, inputs := List.replicate count none })
  match kind, parameter with
  | .gate g, none => gate g 2
  | .gate .xor, some value => if value = 2 then gate .xor 2 else invalid value
  | .gate g, some value =>
    if 1 ≤ value.toNat ∧ value.toNat ≤ maxGateInputs then gate g value.toNat else invalid value
  | .switch, none => .ok (.switch false)
  | .switch, some value =>
    if value = 0 then .ok (.switch false)
    else if value = 1 then .ok (.switch true)
    else invalid value
  | .clock, none => .error (.missingParameter kind)
  | .clock, some value =>
    if value = 0 then invalid value else .ok (.clock { halfPeriod := value })
  | .dtype, _ => .ok (.dtype {})

def kind : Logic → DeviceKind
  | gate g => .gate g.kind
  | switch _ => .switch
  | clock _ => .clock
  | dtype _ => .dtype

def output? : Logic → OutputPin → Option Bool
  | gate g, .out => some g.output
  | switch closed, .out => some closed
  | clock c, .out => some c.output
  | dtype ff, .q => some ff.stored
  | dtype ff, .qbar => some !ff.stored
  | _, _ => none

/-- The outputs of a part, in the order in which they are listed. -/
def outputPins : Logic → List OutputPin
  | dtype _ => [.q, .qbar]
  | _ => [.out]

/-- The inputs of a part with their drivers, in the order in which they are listed. -/
def inputs : Logic → List (InputPin × Option Terminal)
  | gate g => g.inputs.mapIdx fun i driver => (.gate (i + 1), driver)
  | dtype ff => [(.clk, ff.clk), (.data, ff.data), (.set, ff.set), (.clear, ff.clear)]
  | _ => []

/-- The driver of an input; `none` where the part has no such input. -/
def input? : Logic → InputPin → Option (Option Terminal)
  | gate g, .gate (i + 1) => g.inputs[i]?
  | dtype ff, .clk => some ff.clk
  | dtype ff, .data => some ff.data
  | dtype ff, .set => some ff.set
  | dtype ff, .clear => some ff.clear
  | _, _ => none

/-- The part with the driver of one input put in place. -/
def drive (l : Logic) (pin : InputPin) (driver : Terminal) : Logic :=
  match l, pin with
  | gate g, .gate (i + 1) => gate { g with inputs := g.inputs.set i (some driver) }
  | dtype ff, .clk => dtype { ff with clk := some driver }
  | dtype ff, .data => dtype { ff with data := some driver }
  | dtype ff, .set => dtype { ff with set := some driver }
  | dtype ff, .clear => dtype { ff with clear := some driver }
  | l, _ => l

/-- A clock counts the cycle; the other parts stay as they are. -/
def tick : Logic → Logic
  | clock c => clock c.tick
  | l => l

/-- A gate takes the value of its function, a flip-flop the level forced on it. -/
def refresh (read : Option Terminal → Bool) : Logic → Logic
  | gate g => gate { g with output := g.kind.evaluate (g.inputs.map read) }
  | dtype ff => dtype { ff with stored := (ff.forced? read).getD ff.stored }
  | l => l

/-- A flip-flop samples its clock; the other parts stay as they are. -/
def latch (read : Option Terminal → Bool) : Logic → Logic
  | dtype ff => dtype (ff.latch read)
  | l => l

def stored? : Logic → Option Bool
  | dtype ff => some ff.stored
  | _ => none

/-- The state when the power comes on. Drivers and switches are kept. -/
def reset : Logic → Logic
  | gate g => gate { g with output := false }
  | switch closed => switch closed
  | clock c => clock { c with counter := 0, output := false }
  | dtype ff => dtype { ff with stored := false, lastClk := false }

end Logic

/-! ## Devices -/

namespace Device

def kind (d : Device) : DeviceKind := d.logic.kind

def output? (d : Device) (pin : OutputPin) : Option Bool := d.logic.output? pin

def hasOutput (d : Device) (pin : OutputPin) : Bool := d.logic.outputPins.contains pin

def terminals (d : Device) : List Terminal := d.logic.outputPins.map fun pin => ⟨d.id, pin⟩

def inputs (d : Device) : List (InputPin × Option Terminal) := d.logic.inputs

def input? (d : Device) (pin : InputPin) : Option (Option Terminal) := d.logic.input? pin

/-- How many inputs a gate has; zero for the other kinds. -/
def gateInputs (d : Device) : Nat :=
  match d.logic with
  | .gate g => g.inputs.length
  | _ => 0

def mapLogic (d : Device) (f : Logic → Logic) : Device := { d with logic := f d.logic }

end Device

end Breadboard
