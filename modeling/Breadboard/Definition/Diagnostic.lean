import Breadboard.Definition.Position

/-!
# Diagnostics

A problem of a definition as its author sees it: the kind of problem, a message, and the
source line with a caret under the place.
-/
namespace Breadboard.Definition

/-- The kinds of problem that a definition may have. -/
inductive DiagnosticKind where
  | invalidCharacter
  | invalidName
  | invalidNumber
  | invalidHeader
  | missingHeader
  | invalidPin
  | missingDot
  | missingI
  | missingPort
  | missingRequiredParameter
  | nameDefined
  | syntaxError
  | invalidLogicGate
  | invalidDevice
  | overflowError
  | deviceError
  | invalidInputs
  | internalError
  deriving DecidableEq, Repr

namespace DiagnosticKind

def all : List DiagnosticKind :=
  [invalidCharacter, invalidName, invalidNumber, invalidHeader, missingHeader, invalidPin,
    missingDot, missingI, missingPort, missingRequiredParameter, nameDefined, syntaxError,
    invalidLogicGate, invalidDevice, overflowError, deviceError, invalidInputs, internalError]

def name : DiagnosticKind → String
  | invalidCharacter => "InvalidCharacter"
  | invalidName => "InvalidName"
  | invalidNumber => "InvalidNumber"
  | invalidHeader => "InvalidHeader"
  | missingHeader => "MissingHeader"
  | invalidPin => "InvalidPin"
  | missingDot => "MissingDot"
  | missingI => "MissingI"
  | missingPort => "MissingPort"
  | missingRequiredParameter => "MissingRequiredParameter"
  | nameDefined => "NameDefined"
  | syntaxError => "SyntaxError"
  | invalidLogicGate => "InvalidLogicGate"
  | invalidDevice => "InvalidDevice"
  | overflowError => "OverflowError"
  | deviceError => "DeviceError"
  | invalidInputs => "InvalidInputs"
  | internalError => "InternalError"

/-- What the kind means, whatever the file. -/
def description : DiagnosticKind → String
  | invalidCharacter => "This character is not allowed in the definition file."
  | invalidName =>
    "Names must start with a letter and contain only letters and digits. " ++
      "Device types and section headings are reserved words."
  | invalidNumber => "The number is out of range for this device."
  | invalidHeader => "Section headers are written [devices], [conns] or [monit]."
  | missingHeader =>
    "The file must contain the [devices], [conns] and [monit] sections, in this order."
  | invalidPin => "The pin does not exist on this device."
  | missingDot => "Device and pin names are separated by a '.', as in G1.I1 or D1.Q."
  | missingI => "Gate inputs are named I1 to I16."
  | missingPort =>
    "D-type flip-flops must be connected through a named port: " ++
      "CLK, DATA, SET or CLEAR for inputs, Q or QBAR for outputs."
  | missingRequiredParameter =>
    "This device type needs a parameter in brackets, e.g. CLOCK(2)."
  | nameDefined => "Device names must be unique across the whole circuit."
  | syntaxError => "The line does not follow the grammar of its section."
  | invalidLogicGate => "Device types are AND, OR, NAND, NOR, XOR, SWITCH, CLOCK and DTYPE."
  | invalidDevice => "The device was not declared in the [devices] section."
  | overflowError => "The section is too long or malformed, the parser gave up on it."
  | deviceError => "The operation is not valid for this device."
  | invalidInputs =>
    "Inputs are I1 to I16 for gates and CLK, DATA, SET or CLEAR for D-type flip-flops."
  | internalError => "The simulator hit an unexpected internal failure while reading the file."

end DiagnosticKind

structure Diagnostic where
  kind : DiagnosticKind
  message : String
  position : Position
  /-- The source line of the position. -/
  lineText : String
  deriving DecidableEq, Repr

namespace Diagnostic

/-- The diagnostic as text. Lines and columns are shown counted from one. -/
def render (d : Diagnostic) : String :=
  s!"Error - {d.kind.name}: {d.message}\n" ++
  s!"Line {d.position.line + 1} Char {d.position.column + 1}:\n" ++
  s!"{d.lineText}\n" ++
  String.ofList (List.replicate d.position.column ' ') ++ "^\n" ++
  s!"Description: {d.kind.description}"

/-- Several diagnostics, with a blank line after each. -/
def renderAll (ds : List Diagnostic) : String := String.join (ds.map (·.render ++ "\n\n"))

end Diagnostic

end Breadboard.Definition
