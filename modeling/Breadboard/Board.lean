import Breadboard.Probe.Basic
import Breadboard.Text.Lines

/-!
# Boards

A board is a circuit with the names of its devices and the probes on it.

A signal is an output under the name that users see: the name of the device, followed by a
dot and the name of the pin where the output has one, as in `G1` and `FF1.QBAR`.
-/
namespace Breadboard

structure Board where
  names : NameTable := .empty
  circuit : Circuit
  probes : Probes := .empty
  deriving DecidableEq, Repr

namespace Board

def empty (passLimit : Nat) : Board := { circuit := .empty passLimit }

def signalName (b : Board) (t : Terminal) : String :=
  match t.pin.name? with
  | some pin => s!"{b.names.displayName t.device}.{pin}"
  | none => b.names.displayName t.device

/-- The output that a signal name stands for. The part before the first dot is the name of
a device that has been entered, whether or not there is such an output. -/
def terminal? (b : Board) (name : String) : Option Terminal :=
  match Text.cutAt? '.' name with
  | some (device, pin) =>
    (OutputPin.ofName? pin).bind fun pin => (b.names.query? device).map fun id => ⟨id, pin⟩
  | none => (b.names.query? name).map fun id => ⟨id, .out⟩

/-- The names of the probed outputs, in order. -/
def monitored (b : Board) : List String :=
  (b.circuit.terminals.filter b.probes.contains).map b.signalName

/-- The names of the outputs without a probe, in order. -/
def unmonitored (b : Board) : List String :=
  (b.circuit.terminals.filter fun t => !b.probes.contains t).map b.signalName

def trace? (b : Board) (name : String) : Option Trace := (b.terminal? name).bind b.probes.trace?

def traces (b : Board) : List (String × Trace) :=
  (b.probes.traces b.circuit).map fun (t, trace) => (b.signalName t, trace)

def record (b : Board) : Board := { b with probes := b.probes.record b.circuit }

/-- Takes the probe off a signal, or puts one on that starts with the given number of blanks.
Says whether the signal is probed afterwards. -/
def toggle (b : Board) (name : String) (blanks : Nat) : Except ProbeError (Bool × Board) :=
  match b.terminal? name with
  | none => .error (.unknownSignal name)
  | some t =>
    if !b.circuit.hasTerminal t then .error (.unknownSignal name)
    else if b.probes.contains t then .ok (false, { b with probes := b.probes.remove t })
    else (b.probes.add b.circuit t blanks).map fun probes => (true, { b with probes })

def device? (b : Board) (name : String) : Option NameId :=
  (b.names.query? name).filter b.circuit.contains

end Board

end Breadboard
