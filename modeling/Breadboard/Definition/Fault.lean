import Breadboard.Definition.Diagnostic
import Breadboard.Definition.Token

/-!
# Faults

The causes for which a definition is refused. A fault knows what was found and what was
expected; its kind and its wording follow from that.
-/
namespace Breadboard.Definition

inductive Fault where
  /-- A character that has no place in a definition. -/
  | stray (c : Char)
  /-- Tokens before the first header. -/
  | expectedSection (s : Section) (found : Token)
  /-- A section that is not there, and the later section found in its place, if any. -/
  | missingSection (s : Section) (before : Option Section)
  | expectedHeading (found : Token)
  | unclosedHeader (s : Section) (found : Token)
  | misplacedSection (s : Section)
  | tooManyLines (limit : Nat) (s : Section)
  | expectedName (found : Token)
  | reservedName (word : Token)
  | alreadyDefined (name : String)
  | undeclared (name : String)
  | missingDot (name next : String)
  | numberAsPin (number : Token)
  | expectedPin (found : Token)
  | expectedEqualAfterNames (found : Token)
  | expectedDeviceType (found : Token)
  | expectedParameter (found : Token)
  | numberTooLarge (number : Token)
  | unclosedParameter (found : Token)
  | invalidParameter (kind : DeviceKind) (value : UInt32) (name : String)
  | missingParameter (kind : DeviceKind) (name : String)
  | expectedEqual (target : String) (found : Token)
  /-- A source or signal that names a flip-flop but none of its outputs. -/
  | unnamedOutput (device : String)
  | noSuchOutput (pin device : String)
  /-- A pin name after a device with a single output. -/
  | singleOutput (kind : DeviceKind) (device : String)
  /-- A target that names a flip-flop but none of its inputs. -/
  | unnamedInput (device : String)
  | noInputs (kind : DeviceKind) (device : String)
  | noSuchInput (kind : DeviceKind) (device : String) (pin : InputPin)
  /-- A target that names an output. -/
  | drivenOutput (reference : String)
  | notAnInput (word : String)
  | tooManySources (device : String) (inputs : Nat)
  | singleSource (device : String) (pin : InputPin)
  | alreadyConnected (device : String) (pin : InputPin)
  | alreadyMonitored (signal : String)
  | missingSemicolon (last : Token)
  | expectedSemicolon (found : Token)
  /-- A refusal by the circuit or the probes that no definition should bring about. -/
  | internal (cause : String)
  deriving DecidableEq, Repr

namespace Fault

def kind : Fault → DiagnosticKind
  | stray _ => .invalidCharacter
  | expectedSection _ _ | missingSection _ _ => .missingHeader
  | expectedHeading _ | unclosedHeader _ _ | misplacedSection _ => .invalidHeader
  | tooManyLines _ _ => .overflowError
  | expectedName _ | reservedName _ => .invalidName
  | alreadyDefined _ => .nameDefined
  | undeclared _ => .invalidDevice
  | missingDot _ _ => .missingDot
  | numberAsPin _ => .missingI
  | expectedPin _ | noSuchOutput _ _ | singleOutput _ _ | noInputs _ _ | noSuchInput _ _ _
  | drivenOutput _ | tooManySources _ _ | singleSource _ _ => .invalidPin
  | expectedEqualAfterNames _ | expectedParameter _ | unclosedParameter _ | expectedEqual _ _
  | missingSemicolon _ | expectedSemicolon _ => .syntaxError
  | expectedDeviceType _ => .invalidLogicGate
  | numberTooLarge _ | invalidParameter _ _ _ => .invalidNumber
  | missingParameter _ _ => .missingRequiredParameter
  | unnamedOutput _ | unnamedInput _ => .missingPort
  | notAnInput _ => .invalidInputs
  | alreadyConnected _ _ | alreadyMonitored _ => .deviceError
  | internal _ => .internalError

/-- The wording for a parameter that a kind does not accept. -/
def parameterMessage (kind : DeviceKind) (value : UInt32) (name : String) : String :=
  match kind with
  | .gate .xor => s!"Invalid input count {value} for '{name}', XOR gates have exactly 2 inputs"
  | .switch => s!"Invalid initial state {value} for switch '{name}', expected 0 or 1"
  | .clock => s!"Invalid half-period {value} for clock '{name}', expected at least 1"
  | kind =>
    s!"Invalid input count {value} for '{name}', " ++
      s!"{kind.keyword} gates have 1 to {maxGateInputs} inputs"

def message : Fault → String
  | stray c => s!"Unexpected character '{c}'"
  | expectedSection s found => s!"Expected '{s.header}', found {found.describe}"
  | missingSection s none => s!"Missing '{s.header}' section"
  | missingSection s (some next) => s!"Missing '{s.header}' section before '{next.header}'"
  | expectedHeading found =>
    s!"Expected 'devices', 'conns' or 'monit' after '[', found {found.describe}"
  | unclosedHeader s found => s!"Expected ']' after '[{s.heading}', found {found.describe}"
  | misplacedSection s => s!"Section '{s.header}' is repeated or out of order"
  | tooManyLines limit s => s!"More than {limit} declarations in section '{s.header}'"
  | expectedName found => s!"Expected a device name, found {found.describe}"
  | reservedName word => s!"{word.describe} is a reserved word, not a device name"
  | alreadyDefined name => s!"Device '{name}' is already defined"
  | undeclared name => s!"Device '{name}' is not declared in '{Section.devices.header}'"
  | missingDot name next => s!"Expected '.' between '{name}' and '{next}'"
  | numberAsPin number =>
    s!"Expected a pin name, found number {number.describe}; " ++
      s!"gate inputs are written I{number.text}"
  | expectedPin found => s!"Expected a pin name after '.', found {found.describe}"
  | expectedEqualAfterNames found =>
    s!"Expected ',' or '=' after a device name, found {found.describe}"
  | expectedDeviceType found =>
    "Expected a device type (AND, OR, NAND, NOR, XOR, SWITCH, CLOCK or DTYPE), " ++
      s!"found {found.describe}"
  | expectedParameter found => s!"Expected a number after '(', found {found.describe}"
  | numberTooLarge number => s!"Number {number.describe} is too large"
  | unclosedParameter found => s!"Expected ')' after the parameter, found {found.describe}"
  | invalidParameter kind value name => parameterMessage kind value name
  | missingParameter kind name =>
    s!"{kind.keyword} '{name}' needs a parameter, e.g. {kind.keyword}(1)"
  | expectedEqual target found => s!"Expected '=' after '{target}', found {found.describe}"
  | unnamedOutput device => s!"D-type '{device}' has two outputs, select one with .Q or .QBAR"
  | noSuchOutput pin device =>
    s!"'{pin}' is not an output of D-type '{device}', expected Q or QBAR"
  | singleOutput kind device =>
    s!"{kind.keyword} '{device}' has a single output and takes no pin name"
  | unnamedInput device => s!"D-type inputs must be named, e.g. '{device}.DATA'"
  | noInputs kind device => s!"{kind.keyword} '{device}' has no inputs"
  | noSuchInput kind device pin => s!"{kind.keyword} '{device}' has no input {pin.name}"
  | drivenOutput reference => s!"'{reference}' is an output and cannot be driven"
  | notAnInput word =>
    s!"'{word}' is not an input name, expected I1 to I16, CLK, DATA, SET or CLEAR"
  | tooManySources device inputs =>
    s!"Too many sources for '{device}', which has {inputs} inputs"
  | singleSource device pin => s!"Input '{device}.{pin.name}' takes a single source"
  | alreadyConnected device pin => s!"Input '{device}.{pin.name}' is already connected"
  | alreadyMonitored signal => s!"Signal '{signal}' is already monitored"
  | missingSemicolon last => s!"Expected ';' after {last.describe}"
  | expectedSemicolon found => s!"Expected ';', found {found.describe}"
  | internal cause => s!"Internal error: {cause}"

end Fault

/-- A fault and the place it refers to. -/
structure Issue where
  fault : Fault
  position : Position
  deriving DecidableEq, Repr

def Fault.on (f : Fault) (t : Token) : Issue := ⟨f, t.position⟩

/-- The issues of a scan: one for each character that has no place in a definition. -/
def Scan.issues (s : Scan) : List Issue := s.strays.map fun (p, c) => ⟨.stray c, p⟩

/-- The issue as it is shown, given the lines of the source. -/
def Issue.diagnostic (lines : Array String) (i : Issue) : Diagnostic where
  kind := i.fault.kind
  message := i.fault.message
  position := i.position
  lineText := lines[i.position.line]?.getD ""

end Breadboard.Definition
