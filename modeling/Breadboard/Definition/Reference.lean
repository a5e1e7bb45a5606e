import Breadboard.Definition.Draft

/-!
# References

A reference is the name of a declared device, with the name of one of its pins behind a dot
where one has to be chosen. It stands for an output in a source or a signal, and for an
input in a target.
-/
namespace Breadboard.Definition

structure Reference where
  device : NameId
  name : Token
  pin : Option Token

namespace Reference

/-- The reference as it is named in a message. -/
def describe (r : Reference) : String :=
  match r.pin with
  | some pin => s!"{r.name.text}.{pin.text}"
  | none => r.name.text

def last (r : Reference) : Token := r.pin.getD r.name

end Reference

/-- Reads what follows the name of a device: a pin behind a dot, or nothing. -/
def readPin (device : NameId) (name : Token) (c : Cursor) : Except Issue (Reference × Cursor) :=
  let t := c.current
  match t.kind with
  | .mark .dot =>
    let pin := c.advance.current
    match pin.kind with
    | .name _ => .ok (⟨device, name, some pin⟩, c.advance.advance)
    | .number => .error ((Fault.numberAsPin pin).on pin)
    | _ => .error ((Fault.expectedPin pin).on pin)
  | .name _ => .error ((Fault.missingDot name.text t.text).on t)
  | _ => .ok (⟨device, name, none⟩, c)

/-- Reads a reference to one of the declared devices. -/
def readReference (declared : List NameId) (c : Cursor) : Except Issue (Reference × Cursor) :=
  match c.ahead with
  | [] => .error ((Fault.expectedName c.stop).on c.stop)
  | t :: _ =>
    match t.kind with
    | .name id =>
      if declared.contains id then readPin id t c.advance
      else .error ((Fault.undeclared t.text).on t)
    | .logic _ _ => .error ((Fault.reservedName t).on t)
    | _ => .error ((Fault.expectedName t).on t)

theorem suffix_readPin {device : NameId} {name : Token} {c c' : Cursor} {r : Reference}
    (h : readPin device name c = .ok (r, c')) : c'.ahead <:+ c.ahead := by
  simp only [readPin] at h
  split at h
  · split at h
    · cases h
      exact c.advance.suffix_advance.trans c.suffix_advance
    · cases h
    · cases h
  · cases h
  · cases h
    exact List.suffix_rfl

theorem suffix_readReference {declared : List NameId} {c c' : Cursor} {r : Reference}
    (h : readReference declared c = .ok (r, c')) : c'.ahead <:+ c.ahead := by
  unfold readReference at h
  split at h
  · cases h
  · split at h
    · split at h
      · exact (suffix_readPin h).trans c.suffix_advance
      · cases h
    · cases h
    · cases h

theorem length_readReference_lt {declared : List NameId} {c c' : Cursor} {r : Reference}
    (h : readReference declared c = .ok (r, c')) : c'.ahead.length < c.ahead.length := by
  unfold readReference at h
  split at h
  · cases h
  · rename_i hc
    split at h
    · split at h
      · exact Nat.lt_of_le_of_lt (suffix_readPin h).length_le
          (Cursor.length_advance_lt (by simp [hc]))
      · cases h
    · cases h
    · cases h

namespace Draft

def device (d : Draft) (r : Reference) : Except Issue Device :=
  match d.circuit.find? r.device with
  | some device => .ok device
  | none =>
    .error ((Fault.internal s!"declared device '{r.name.text}' is missing").on r.name)

/-- The output that a source or a signal stands for. A flip-flop has two, of which one has to
be named; the other kinds have a single one without a name. -/
def output (d : Draft) (r : Reference) : Except Issue Terminal := do
  let device ← d.device r
  match r.pin, device.kind with
  | none, .dtype => .error ((Fault.unnamedOutput r.name.text).on r.name)
  | none, _ => .ok ⟨r.device, .out⟩
  | some pin, .dtype =>
    match OutputPin.ofName? pin.text with
    | some output => .ok ⟨r.device, output⟩
    | none => .error ((Fault.noSuchOutput pin.text r.name.text).on pin)
  | some pin, kind => .error ((Fault.singleOutput kind r.name.text).on pin)

/-- The input at which a connection line starts: the one that is named, or the first input of
a gate. -/
def input (d : Draft) (r : Reference) : Except Issue InputPin := do
  let device ← d.device r
  match r.pin with
  | none =>
    match device.kind with
    | .dtype => .error ((Fault.unnamedInput r.name.text).on r.name)
    | .gate _ => .ok (.gate 1)
    | kind => .error ((Fault.noInputs kind r.name.text).on r.name)
  | some word =>
    match InputPin.ofName? word.text with
    | none =>
      if (OutputPin.ofName? word.text).isSome then
        .error ((Fault.drivenOutput r.describe).on word)
      else .error ((Fault.notAnInput word.text).on word)
    | some pin =>
      if (device.input? pin).isSome then .ok pin
      else
        match device.kind with
        | .switch | .clock => .error ((Fault.noInputs device.kind r.name.text).on word)
        | kind => .error ((Fault.noSuchInput kind r.name.text pin).on word)

end Draft

end Breadboard.Definition
