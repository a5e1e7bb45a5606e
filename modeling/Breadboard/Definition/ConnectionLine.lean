import Breadboard.Definition.Reference

/-!
# Connection lines

    connection = signal "=" signal { "," signal } ";"

The first signal is the target. Several sources drive consecutive inputs of a gate, starting
at the one that the target names; an input of a flip-flop takes a single source. A source
that does not fit is reported and the line given up; an input that has a driver already
keeps it, and the line goes on.
-/
namespace Breadboard.Definition

/-- The left side of a connection line. -/
structure Target where
  reference : Reference
  /-- The input that the first source drives. -/
  first : InputPin
  /-- How many inputs the target has, if it is a gate. -/
  inputs : Nat

/-- Reads a target and the equals sign after it. -/
def readTarget (d : Draft) (c : Cursor) : Except Issue (Target × Cursor) := do
  let (r, c) ← readReference d.declared c
  let first ← d.input r
  let device ← d.device r
  if c.isAt .equal then .ok (⟨r, first, device.gateInputs⟩, c.advance)
  else .error ((Fault.expectedEqual r.describe c.current).on c.current)

/-- The input that a source drives, given its position in the line. -/
def Target.pin (t : Target) (index : Nat) (source : Reference) : Except Issue InputPin :=
  match t.first with
  | .gate n =>
    if n + index ≤ t.inputs then .ok (.gate (n + index))
    else .error ((Fault.tooManySources t.reference.name.text t.inputs).on source.last)
  | pin =>
    if index = 0 then .ok pin
    else .error ((Fault.singleSource t.reference.name.text pin).on source.name)

/-- Connects a source to the input that it drives. -/
def Draft.attach (d : Draft) (t : Target) (index : Nat) (source : Reference) :
    Except Issue Draft := do
  let output ← d.output source
  let pin ← t.pin index source
  match d.circuit.connect output t.reference.device pin with
  | .ok circuit => .ok { d with circuit }
  | .error (.inputConnected _ pin) =>
    .ok (d.report ((Fault.alreadyConnected t.reference.name.text pin).on source.name))
  | .error e =>
    let cause := s!"connecting '{source.describe}' to '{t.reference.describe}': {e.message}"
    .error ((Fault.internal cause).on source.name)

/-- Reads the sources of a connection line from a given position on, and the end of the
line. -/
def readSources (t : Target) (index : Nat) (c : Cursor) (d : Draft) : Cursor × Draft :=
  match _h : readReference d.declared c with
  | .error issue => d.abandonLine c issue
  | .ok (source, c') =>
    match d.attach t index source with
    | .error issue => d.abandonLine c' issue
    | .ok d =>
      if c'.isAt .comma then readSources t (index + 1) c'.advance d
      else d.endLine c'
termination_by c.ahead.length
decreasing_by
  exact Nat.lt_of_le_of_lt c'.suffix_advance.length_le (length_readReference_lt _h)

theorem suffix_readSources (t : Target) (index : Nat) (c : Cursor) (d : Draft) :
    (readSources t index c d).1.ahead <:+ c.ahead := by
  fun_induction readSources t index c d with
  | case1 _ c => exact c.suffix_skipLine
  | case2 _ c _ _ c' h => exact c'.suffix_skipLine.trans (suffix_readReference h)
  | case3 _ c _ _ c' h _ _ _ ih =>
    exact ih.trans (c'.suffix_advance.trans (suffix_readReference h))
  | case4 _ c _ _ c' h => exact (Draft.suffix_endLine _ _).trans (suffix_readReference h)

theorem suffix_readTarget {d : Draft} {c c' : Cursor} {t : Target}
    (h : readTarget d c = .ok (t, c')) : c'.ahead <:+ c.ahead := by
  simp only [readTarget, bind, Except.bind] at h
  split at h
  · cases h
  · rename_i hr
    split at h
    · cases h
    split at h
    · cases h
    split at h
    · cases h
      exact (Cursor.suffix_advance _).trans (suffix_readReference hr)
    · cases h

def readConnectionLine (c : Cursor) (d : Draft) : Cursor × Draft :=
  match readTarget d c with
  | .error issue => d.abandonLine c issue
  | .ok (target, c) => readSources target 0 c d

theorem suffix_readConnectionLine (c : Cursor) (d : Draft) :
    (readConnectionLine c d).1.ahead <:+ c.ahead := by
  unfold readConnectionLine
  split
  · exact c.suffix_skipLine
  · rename_i h
    exact (suffix_readSources _ _ _ _).trans (suffix_readTarget h)

end Breadboard.Definition
