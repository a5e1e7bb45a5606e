import Breadboard.NameTable

/-!
# Pins

Devices are joined at pins. A gate has numbered inputs and one output without a name; a
flip-flop has four named inputs and two named outputs.
-/
namespace Breadboard

/-- The most inputs a gate may have. -/
def maxGateInputs : Nat := 16

inductive InputPin where
  /-- An input of a gate, counted from one. -/
  | gate (number : Nat)
  | clk
  | data
  | set
  | clear
  deriving DecidableEq, Repr

namespace InputPin

def name : InputPin → String
  | gate number => s!"I{number}"
  | clk => "CLK"
  | data => "DATA"
  | set => "SET"
  | clear => "CLEAR"

/-- Every input pin that a definition can name. -/
def all : List InputPin :=
  [clk, data, set, clear] ++ (List.range maxGateInputs).map fun i => gate (i + 1)

def ofName? (word : String) : Option InputPin := all.find? (·.name == word)

theorem name_of_ofName? {word : String} {pin : InputPin} (h : ofName? word = some pin) :
    pin.name = word := by
  simpa using List.find?_some h

end InputPin

inductive OutputPin where
  /-- The only output of a gate, a switch or a clock. -/
  | out
  | q
  | qbar
  deriving DecidableEq, Repr

namespace OutputPin

/-- The word for the pin in a definition; the single output has none. -/
def name? : OutputPin → Option String
  | out => none
  | q => some "Q"
  | qbar => some "QBAR"

/-- The word for the pin in a message. -/
def label : OutputPin → String
  | out => "Out"
  | q => "Q"
  | qbar => "QBar"

def ofName? (word : String) : Option OutputPin := [q, qbar].find? (·.name? == some word)

theorem name?_of_ofName? {word : String} {pin : OutputPin} (h : ofName? word = some pin) :
    pin.name? = some word := by
  simpa using List.find?_some h

end OutputPin

/-- An output pin of a device: what drives an input, and what a probe is put on. -/
structure Terminal where
  device : NameId
  pin : OutputPin
  deriving DecidableEq, Repr

end Breadboard
