import Breadboard.Definition.Draft

/-!
# Device lines

    device = name { "," name } "=" kind [ "(" number ")" ] ";"

All devices of a line have the same kind and parameter. A name that cannot be used is
reported and left out; the other names of the line still become devices.
-/
namespace Breadboard.Definition

/-- Takes one more token for the name of a device. A name that cannot be used is reported and
left out; anything that is not a word ends the line. -/
def Draft.takeName (d : Draft) (names : List (NameId × Token)) (t : Token) :
    Except Issue (List (NameId × Token) × Draft) :=
  match t.kind with
  | .name id =>
    if d.declared.contains id || names.any (·.1 == id) then
      .ok (names, d.report ((Fault.alreadyDefined t.text).on t))
    else .ok (names ++ [(id, t)], d)
  | .logic _ _ => .ok (names, d.report ((Fault.reservedName t).on t))
  | _ => .error ((Fault.expectedName t).on t)

/-- Reads the names of a device line, given those read already. -/
def readNames (names : List (NameId × Token)) (c : Cursor) (d : Draft) :
    Draft × Except Issue (List (NameId × Token) × Cursor) :=
  match _h : c.ahead with
  | [] => (d, .error ((Fault.expectedName c.stop).on c.stop))
  | t :: _ =>
    match d.takeName names t with
    | .error issue => (d, .error issue)
    | .ok (names, d) =>
      if c.advance.isAt .comma then readNames names c.advance.advance d
      else (d, .ok (names, c.advance))
termination_by c.ahead.length
decreasing_by
  exact Nat.lt_of_le_of_lt c.advance.suffix_advance.length_le
    (Cursor.length_advance_lt (by simp [_h]))

theorem suffix_readNames {names read : List (NameId × Token)} {c c' : Cursor} {d : Draft}
    (h : (readNames names c d).2 = .ok (read, c')) : c'.ahead <:+ c.ahead := by
  fun_induction readNames names c d with
  | case1 => cases h
  | case2 => cases h
  | case3 _ c _ _ _ _ _ _ _ _ ih =>
    exact (ih h).trans (c.advance.suffix_advance.trans c.suffix_advance)
  | case4 _ c =>
    cases h
    exact c.suffix_advance

def readParameter (c : Cursor) : Except Issue (Option UInt32 × Cursor) :=
  if !c.isAt .openBracket then .ok (none, c)
  else
    let c := c.advance
    if c.current.kind ≠ .number then
      .error ((Fault.expectedParameter c.current).on c.current)
    else
      match c.current.number? with
      | none => .error ((Fault.numberTooLarge c.current).on c.current)
      | some value =>
        let c := c.advance
        if c.isAt .closeBracket then .ok (some value, c.advance)
        else .error ((Fault.unclosedParameter c.current).on c.current)

def readKind (c : Cursor) : Except Issue ((DeviceKind × Option UInt32) × Cursor) :=
  if !c.isAt .equal then .error ((Fault.expectedEqualAfterNames c.current).on c.current)
  else
    let c := c.advance
    match c.current.kind with
    | .logic kind _ => (readParameter c.advance).map fun (parameter, c) => ((kind, parameter), c)
    | _ => .error ((Fault.expectedDeviceType c.current).on c.current)

theorem suffix_readParameter {c c' : Cursor} {parameter : Option UInt32}
    (h : readParameter c = .ok (parameter, c')) : c'.ahead <:+ c.ahead := by
  simp only [readParameter] at h
  split at h
  · cases h
    exact List.suffix_rfl
  split at h
  · cases h
  split at h
  · cases h
  split at h
  · cases h
    exact (Cursor.suffix_advance _).trans ((Cursor.suffix_advance _).trans c.suffix_advance)
  · cases h

theorem suffix_readKind {c c' : Cursor} {kind : DeviceKind × Option UInt32}
    (h : readKind c = .ok (kind, c')) : c'.ahead <:+ c.ahead := by
  simp only [readKind] at h
  split at h
  · cases h
  split at h
  · cases hp : readParameter c.advance.advance with
    | error => simp [hp, Except.map] at h
    | ok x =>
      rw [hp] at h
      cases h
      exact (suffix_readParameter hp).trans ((Cursor.suffix_advance _).trans c.suffix_advance)
  · cases h

/-- Adds one device, or reports why it cannot be added. -/
def Draft.declare (d : Draft) (kind : DeviceKind) (parameter : Option UInt32)
    (name : NameId × Token) : Draft :=
  let (id, t) := name
  match d.circuit.addDevice id kind parameter with
  | .ok circuit => { d with circuit, declared := d.declared ++ [id] }
  | .error (.invalidParameter kind value) =>
    d.report ((Fault.invalidParameter kind value t.text).on t)
  | .error (.missingParameter kind) => d.report ((Fault.missingParameter kind t.text).on t)
  | .error (.present _) => d.report ((Fault.alreadyDefined t.text).on t)
  | .error e => d.report ((Fault.internal s!"creating '{t.text}': {e.message}").on t)

def readDeviceLine (c : Cursor) (d : Draft) : Cursor × Draft :=
  match readNames [] c d with
  | (d, .error issue) => d.abandonLine c issue
  | (d, .ok (names, c)) =>
    match readKind c with
    | .error issue => d.abandonLine c issue
    | .ok ((kind, parameter), c) =>
      (names.foldl (·.declare kind parameter ·) d).endLine c

theorem suffix_readDeviceLine (c : Cursor) (d : Draft) :
    (readDeviceLine c d).1.ahead <:+ c.ahead := by
  unfold readDeviceLine
  split
  · exact c.suffix_skipLine
  · rename_i hn
    have hnames := suffix_readNames (congrArg Prod.snd hn)
    split
    · exact (Cursor.suffix_skipLine _).trans hnames
    · rename_i hk
      exact (Draft.suffix_endLine _ _).trans ((suffix_readKind hk).trans hnames)

end Breadboard.Definition
