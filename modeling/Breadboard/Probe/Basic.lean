import Breadboard.Circuit.Basic

/-!
# Probes

A probe sits on one output and records its level once in every cycle. A probe that is put
on later starts with blanks for the cycles it missed, so that all traces line up.

* `trace?_record`: recording appends one sample to every trace.
* `trace?_remove`: taking a probe off leaves the other traces alone.
-/
namespace Breadboard

/-- What a probe recorded in one cycle. -/
inductive Sample where
  | low
  | high
  /-- The output was not probed in that cycle. -/
  | blank
  deriving DecidableEq, Repr

namespace Sample

def ofLevel (level : Bool) : Sample := if level then high else low

/-- The sample as one character of a trace. -/
def mark : Sample → Char
  | low => '-'
  | high => '#'
  | blank => ' '

end Sample

/-- The samples of a probe, the earliest first. -/
abbrev Trace := Array Sample

/-- A trace as text, one character for each cycle. -/
def Trace.text (t : Trace) : String := String.ofList (t.toList.map Sample.mark)

structure Probe where
  terminal : Terminal
  trace : Trace
  deriving DecidableEq, Repr

/-- What can go wrong when a probe is put on or taken off. -/
inductive ProbeError where
  | deviceAbsent (id : NameId)
  /-- The device has no such output. -/
  | notOutput (id : NameId) (pin : OutputPin)
  | present (id : NameId) (pin : OutputPin)
  /-- The name does not stand for an output of a device. -/
  | unknownSignal (name : String)
  deriving DecidableEq, Repr

def ProbeError.message : ProbeError → String
  | deviceAbsent id => s!"Device {id} does not exist"
  | notOutput id pin => s!"{pin.label} is not an output of device {id}"
  | present id pin => s!"Output {pin.label} of device {id} is already monitored"
  | unknownSignal name => s!"Unknown signal '{name}'"

/-- The probes on a circuit, at most one on each output. -/
structure Probes where
  probes : List Probe := []
  deriving DecidableEq, Repr

namespace Probes

def empty : Probes := {}

def size (p : Probes) : Nat := p.probes.length

def trace? (p : Probes) (t : Terminal) : Option Trace :=
  (p.probes.find? (·.terminal == t)).map (·.trace)

def contains (p : Probes) (t : Terminal) : Bool := p.probes.any (·.terminal == t)

/-- Puts a probe on an output that has none. It starts with the given number of blanks. -/
def add (p : Probes) (c : Circuit) (t : Terminal) (blanks : Nat) : Except ProbeError Probes :=
  match c.find? t.device with
  | none => .error (.deviceAbsent t.device)
  | some d =>
    if !d.hasOutput t.pin then .error (.notOutput t.device t.pin)
    else if p.contains t then .error (.present t.device t.pin)
    else .ok { probes := p.probes ++ [⟨t, Array.replicate blanks .blank⟩] }

/-- Takes the probe off an output. -/
def remove (p : Probes) (t : Terminal) : Probes :=
  { probes := p.probes.filter (·.terminal != t) }

/-- What a probe on an output records: its level, or a blank if there is no such output. -/
def sample (c : Circuit) (t : Terminal) : Sample :=
  ((c.output? t).map Sample.ofLevel).getD .blank

/-- Appends to each trace the level of its output now. -/
def record (p : Probes) (c : Circuit) : Probes :=
  { probes := p.probes.map fun probe =>
      { probe with trace := probe.trace.push (sample c probe.terminal) } }

/-- Empties every trace. The probes stay in place. -/
def clear (p : Probes) : Probes :=
  { probes := p.probes.map fun probe => { probe with trace := #[] } }

/-- The probed outputs with their traces, in the order of the circuit. -/
def traces (p : Probes) (c : Circuit) : List (Terminal × Trace) :=
  c.terminals.filterMap fun t => (p.trace? t).map fun trace => (t, trace)

theorem contains_eq_isSome_trace? (p : Probes) (t : Terminal) :
    p.contains t = (p.trace? t).isSome := by
  simp only [contains, trace?, Option.isSome_map]
  induction p.probes with
  | nil => rfl
  | cons probe rest ih => by_cases h : probe.terminal = t <;> simp [h, ih]

theorem trace?_record (p : Probes) (c : Circuit) (t : Terminal) :
    (p.record c).trace? t = (p.trace? t).map (·.push (sample c t)) := by
  simp only [trace?, record, List.find?_map, Function.comp_def, Option.map_map]
  cases h : p.probes.find? (·.terminal == t) with
  | none => simp
  | some probe =>
    have ht : probe.terminal = t := by simpa using List.find?_some h
    simp [ht]

theorem trace?_clear (p : Probes) (t : Terminal) :
    p.clear.trace? t = (p.trace? t).map fun _ => #[] := by
  simp only [trace?, clear, List.find?_map, Function.comp_def, Option.map_map]

theorem trace?_remove (p : Probes) (t other : Terminal) :
    (p.remove t).trace? other = if other = t then none else p.trace? other := by
  simp only [trace?, remove]
  induction p.probes with
  | nil => simp
  | cons probe rest ih => grind

end Probes

end Breadboard
