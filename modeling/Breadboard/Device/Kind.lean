import Breadboard.Pin

/-!
# Kinds of device

The kinds a definition can declare, the words for them, and the Boolean function of a gate.
-/
namespace Breadboard

/-- The Boolean functions that gates compute. -/
inductive GateKind where
  | and
  | or
  | nand
  | nor
  | xor
  deriving DecidableEq, Repr

namespace GateKind

def all : List GateKind := [and, or, nand, nor, xor]

def keyword : GateKind → String
  | and => "AND"
  | or => "OR"
  | nand => "NAND"
  | nor => "NOR"
  | xor => "XOR"

/-- The output for given inputs. `XOR` is high when an odd number of inputs is high. -/
def evaluate (g : GateKind) (inputs : List Bool) : Bool :=
  match g with
  | and => inputs.all id
  | or => inputs.any id
  | nand => !inputs.all id
  | nor => !inputs.any id
  | xor => inputs.foldl Bool.xor false

end GateKind

inductive DeviceKind where
  | gate (g : GateKind)
  | switch
  | clock
  /-- An edge triggered flip-flop. -/
  | dtype
  deriving DecidableEq, Repr

namespace DeviceKind

def all : List DeviceKind := GateKind.all.map gate ++ [switch, clock, dtype]

def keyword : DeviceKind → String
  | gate g => g.keyword
  | switch => "SWITCH"
  | clock => "CLOCK"
  | dtype => "DTYPE"

/-- The kind that a reserved word stands for. -/
def ofKeyword? (word : String) : Option DeviceKind := all.find? (·.keyword == word)

theorem keyword_of_ofKeyword? {word : String} {k : DeviceKind} (h : ofKeyword? word = some k) :
    k.keyword = word := by
  simpa using List.find?_some h

theorem ofKeyword?_keyword (k : DeviceKind) : ofKeyword? k.keyword = some k := by
  rcases k with (_ | _ | _ | _ | _) | _ | _ | _ <;> decide

end DeviceKind

end Breadboard
