import Breadboard.Board

/-!
# Waveforms

The traces of a board as a value change dump, the format that waveform viewers read. Each
probed signal is a wire of one bit, each cycle one nanosecond. A value is written in the
first cycle and then in each cycle in which it differs from the one before.

A wire is known in the file by a short code over the 94 printable ASCII characters. Codes of
one character come first, then those of two, with the least significant character in front.
-/
namespace Breadboard.Waveform

/-- The number of characters that codes are made of. -/
def codeBase : Nat := 94

/-- The code of the wire with a given position. -/
def wireCode (i : Nat) : List Char :=
  let c := Char.ofNat (33 + i % codeBase)
  if i < codeBase then [c] else c :: wireCode (i / codeBase - 1)
termination_by i
decreasing_by
  simp only [codeBase] at *
  omega

/-- Whether a character may stand in the name of a wire. -/
def isWireChar (c : Char) : Bool := c.isAlphanum || c == '_'

/-- A signal name with an underscore for each character that a wire name may not have. -/
def wireName (signal : String) : String :=
  String.ofList (signal.toList.map fun c => if isWireChar c then c else '_')

/-- A sample as the value of a wire; a blank is unknown. -/
def value : Sample → Char
  | .low => '0'
  | .high => '1'
  | .blank => 'x'

/-- A wire of the file. -/
structure Wire where
  code : String
  name : String
  trace : Trace

/-- The sample of a wire in a cycle. Past the end of its trace it is blank. -/
def Wire.sample (w : Wire) (cycle : Nat) : Sample := w.trace[cycle]?.getD .blank

/-- The wires of a board, one for each probed signal. -/
def wires (b : Board) : List Wire :=
  b.traces.mapIdx fun i (name, trace) => ⟨String.ofList (wireCode i), wireName name, trace⟩

/-- The longest trace. -/
def duration (ws : List Wire) : Nat := (ws.map (·.trace.size)).foldl max 0

/-- Whether the value of a wire is written in a cycle. -/
def Wire.changesAt (w : Wire) : Nat → Bool
  | 0 => true
  | cycle + 1 => w.sample cycle != w.sample (cycle + 1)

def Wire.declaration (w : Wire) : String := s!"$var wire 1 {w.code} {w.name} $end"

def timestamp (cycle : Nat) : String := s!"#{cycle}"

def cycleLines (ws : List Wire) (cycle : Nat) : List String :=
  timestamp cycle ::
    (ws.filter (·.changesAt cycle)).map fun w =>
      String.singleton (value (w.sample cycle)) ++ w.code

def lines (ws : List Wire) : List String :=
  ["$timescale 1 ns $end", "$scope module logsim $end"] ++ ws.map Wire.declaration ++
    ["$upscope $end", "$enddefinitions $end"] ++
    (List.range (duration ws)).flatMap (cycleLines ws) ++ [timestamp (duration ws)]

end Waveform

/-- The traces of a board as a waveform file. -/
def Board.waveform (b : Board) : String :=
  String.join ((Waveform.lines (Waveform.wires b)).map (· ++ "\n"))

end Breadboard
