import Breadboard.Definition.File
import Breadboard.Proofs.Names

/-!
# The language of definitions

Which definitions are right, and what they stand for, said without their readers.

    file    = "[" "devices" "]" { device } "[" "conns" "]" { conn } "[" "monit" "]" { monit }
    device  = name { "," name } "=" kind [ "(" number ")" ] ";"
    conn    = signal "=" signal { "," signal } ";"
    monit   = signal { "," signal } ";"
    signal  = name [ "." pin ]

A `SyntaxTree` is a derivation of this grammar and `SyntaxTree.symbols` what it derives. A tree
that is `WellFormed` also obeys the rules that the grammar cannot express, and `SyntaxTree.board`
is the board that it describes.
-/
namespace Breadboard

/-- The input of a gate some places after a given one. The other inputs stand alone. -/
def InputPin.plus : InputPin → Nat → InputPin
  | gate n, i => gate (n + i)
  | pin, _ => pin

/-- Whether a part takes a number of sources from an input on: a gate as many as it has inputs
left, an input of a flip-flop a single one. -/
def Logic.Takes (l : Logic) (first : InputPin) (count : Nat) : Prop :=
  match l, first with
  | gate g, .gate n => 1 ≤ n ∧ n + count ≤ g.inputs.length + 1
  | dtype _, .clk | dtype _, .data | dtype _, .set | dtype _, .clear => count = 1
  | _, _ => False

/-- The part with all inputs connected as given. -/
def Logic.wired (driver? : InputPin → Option Terminal) : Logic → Logic
  | gate g => gate { g with inputs := g.inputs.mapIdx fun i _ => driver? (.gate (i + 1)) }
  | dtype ff =>
    dtype { ff with
      clk := driver? .clk, data := driver? .data, set := driver? .set, clear := driver? .clear }
  | l => l

namespace Definition

/-! ## Symbols -/

/-- What a token is apart from its place and its number: its kind and its text. -/
inductive Symbol where
  | heading (s : Section)
  | keyword (k : DeviceKind)
  | name (text : String)
  | number (digits : String)
  | mark (m : Mark)
  deriving DecidableEq, Repr

/-- The symbol of a token. The end of the file has none. -/
def Token.symbol? (t : Token) : Option Symbol :=
  match t.kind with
  | .heading s _ => some (.heading s)
  | .logic k _ => some (.keyword k)
  | .name _ => some (.name t.text)
  | .number => some (.number t.text)
  | .mark m => some (.mark m)
  | .endOfFile => none

/-- The word that a symbol is, if it is one. -/
def Symbol.word? : Symbol → Option String
  | heading s => some s.heading
  | keyword k => some k.keyword
  | name text => some text
  | _ => none

/-- The symbols of a source text, whatever its layout. -/
def symbols (source : String) : List Symbol :=
  (scan .empty source.toList).tokens.filterMap Token.symbol?

/-! ## Syntax -/

/-- The name of a device, with the name of a pin where one is chosen. -/
structure Signal where
  device : String
  pin : Option String
  deriving DecidableEq, Repr

def Signal.symbols (s : Signal) : List Symbol :=
  .name s.device ::
    match s.pin with
    | some pin => [.mark .dot, .name pin]
    | none => []

/-- Several items with commas between them. -/
def separated {α : Type} (symbols : α → List Symbol) : List α → List Symbol
  | [] => []
  | [x] => symbols x
  | x :: rest => symbols x ++ .mark .comma :: separated symbols rest

structure DeviceDecl where
  names : List String
  kind : DeviceKind
  /-- The digits between the brackets. -/
  parameter : Option String
  names_ne_nil : names ≠ []

structure ConnectionDecl where
  target : Signal
  sources : List Signal
  sources_ne_nil : sources ≠ []

structure MonitorDecl where
  signals : List Signal
  signals_ne_nil : signals ≠ []

/-- A line of one of the sections. -/
inductive Line where
  | device (d : DeviceDecl)
  | connection (c : ConnectionDecl)
  | monitor (m : MonitorDecl)

def parameterSymbols : Option String → List Symbol
  | some digits => [.mark .openBracket, .number digits, .mark .closeBracket]
  | none => []

def DeviceDecl.symbols (d : DeviceDecl) : List Symbol :=
  separated (fun name => [.name name]) d.names ++ .mark .equal :: .keyword d.kind ::
    parameterSymbols d.parameter ++ [.mark .semicolon]

def ConnectionDecl.symbols (c : ConnectionDecl) : List Symbol :=
  c.target.symbols ++ .mark .equal :: separated Signal.symbols c.sources ++ [.mark .semicolon]

def MonitorDecl.symbols (m : MonitorDecl) : List Symbol :=
  separated Signal.symbols m.signals ++ [.mark .semicolon]

def Line.symbols : Line → List Symbol
  | device d => d.symbols
  | connection c => c.symbols
  | monitor m => m.symbols

/-- The symbols of a header and of the lines behind it. -/
def Section.symbols (s : Section) (ls : List Line) : List Symbol :=
  [.mark .openSquare, .heading s, .mark .closeSquare] ++ ls.flatMap Line.symbols

/-- The lines of a definition, section by section. -/
structure SyntaxTree where
  devices : List DeviceDecl
  connections : List ConnectionDecl
  monitors : List MonitorDecl

namespace SyntaxTree

def lines (t : SyntaxTree) : Section → List Line
  | .devices => t.devices.map .device
  | .conns => t.connections.map .connection
  | .monit => t.monitors.map .monitor

def symbols (t : SyntaxTree) : List Symbol := Section.all.flatMap fun s => s.symbols (t.lines s)

end SyntaxTree

/-! ## What is declared -/

/-- A declared device as it is when the power comes on, with nothing connected to it. -/
structure Part where
  name : String
  logic : Logic

/-- An input and the signal that drives it. -/
structure Wire where
  target : String
  pin : InputPin
  source : Signal

/-- The input that the wire drives. -/
def Wire.place (w : Wire) : String × InputPin := (w.target, w.pin)

/-- What lines declare. -/
structure Layout where
  parts : List Part := []
  wires : List Wire := []
  signals : List Signal := []

def parameterValue (parameter : Option String) : Option UInt32 :=
  parameter.map fun digits => UInt32.ofNat (Token.digitsValue digits.toList)

/-- The parts of a device line. -/
def DeviceDecl.parts (d : DeviceDecl) : List Part :=
  match Logic.ofKind d.kind (parameterValue d.parameter) with
  | .ok logic => d.names.map fun name => ⟨name, logic⟩
  | .error _ => []

/-- The input that a target names, or the first input of a gate. -/
def Signal.input (s : Signal) : InputPin :=
  match s.pin with
  | some pin => (InputPin.ofName? pin).getD (.gate 1)
  | none => .gate 1

/-- The output that a source or a monitored signal names. -/
def Signal.output (s : Signal) : OutputPin :=
  match s.pin with
  | some pin => (OutputPin.ofName? pin).getD .out
  | none => .out

/-- The wires to consecutive inputs of a device. -/
def wiresFrom (target : String) (first : InputPin) (index : Nat) : List Signal → List Wire
  | [] => []
  | source :: rest => ⟨target, first.plus index, source⟩ :: wiresFrom target first (index + 1) rest

/-- The wires of a connection line. -/
def ConnectionDecl.wires (c : ConnectionDecl) : List Wire :=
  wiresFrom c.target.device c.target.input 0 c.sources

def Line.layout : Line → Layout
  | device d => { parts := d.parts }
  | connection c => { wires := c.wires }
  | monitor m => { signals := m.signals }

namespace Layout

/-- What a run of lines declares. -/
def ofLines (lines : List Line) : Layout where
  parts := lines.flatMap (·.layout.parts)
  wires := lines.flatMap (·.layout.wires)
  signals := lines.flatMap (·.layout.signals)

/-- The output that a signal stands for, given the numbers of the names. -/
def terminal (names : NameTable) (s : Signal) : Terminal := ⟨names.idOf s.device, s.output⟩

def driver? (k : Layout) (names : NameTable) (target : String) (pin : InputPin) :
    Option Terminal :=
  (k.wires.find? (·.place = (target, pin))).map (terminal names ·.source)

/-- The devices with their connections, in the order of declaration. -/
def circuit (k : Layout) (names : NameTable) (passLimit : Nat) : Circuit where
  devices := k.parts.map fun p => ⟨names.idOf p.name, p.logic.wired (k.driver? names p.name)⟩
  passLimit

/-- The probes, in the order of declaration. Their traces are empty. -/
def probes (k : Layout) (names : NameTable) : Probes where
  probes := k.signals.map fun s => ⟨terminal names s, #[]⟩

end Layout

/-! ## Well-formed definitions -/

/-- The parameter fits into 32 bits. -/
def ParameterFits (parameter : Option String) : Prop :=
  ∀ digits, parameter = some digits → Token.digitsValue digits.toList < UInt32.size

/-- The parameter fits into 32 bits and suits the kind. -/
structure DeviceDecl.Suits (d : DeviceDecl) : Prop where
  fits : ParameterFits d.parameter
  accepted : ∃ l, Logic.ofKind d.kind (parameterValue d.parameter) = .ok l

/-- The signal names an output of a declared device: `Q` or `QBAR` of a flip-flop, and no pin for
the other kinds. -/
def Signal.IsOutput (parts : List Part) (s : Signal) : Prop :=
  ∃ p ∈ parts, p.name = s.device ∧ ∃ pin ∈ p.logic.outputPins, pin.name? = s.pin

/-- The target names an input of a declared device, or is a gate without a pin for the first
input, and there is room for the sources. -/
def ConnectionDecl.Fits (parts : List Part) (c : ConnectionDecl) : Prop :=
  ∃ p ∈ parts, p.name = c.target.device ∧ ∃ first,
    (c.target.pin = some first.name ∨ c.target.pin = none ∧ first = .gate 1) ∧
      p.logic.Takes first c.sources.length

namespace SyntaxTree

/-- What the definition declares. -/
def layout (t : SyntaxTree) : Layout := .ofLines (Section.all.flatMap t.lines)

/-- The rules that a definition obeys apart from the grammar. -/
structure WellFormed (limit : Nat) (t : SyntaxTree) : Prop where
  lines_le : ∀ s, (t.lines s).length ≤ limit
  suits : ∀ d ∈ t.devices, d.Suits
  /-- No name is declared twice. -/
  nodup_names : (t.devices.flatMap (·.names)).Nodup
  fits : ∀ c ∈ t.connections, c.Fits t.layout.parts
  sources : ∀ c ∈ t.connections, ∀ s ∈ c.sources, s.IsOutput t.layout.parts
  /-- No input is driven twice. -/
  nodup_places : (t.layout.wires.map Wire.place).Nodup
  signals : ∀ m ∈ t.monitors, ∀ s ∈ m.signals, s.IsOutput t.layout.parts
  /-- No output is monitored twice. -/
  nodup_signals : t.layout.signals.Nodup

/-- The source text is a definition with the given lines: nothing in it is out of place, and its
symbols are derived from them. -/
structure Derives (t : SyntaxTree) (source : String) : Prop where
  strays : (scan .empty source.toList).strays = []
  symbols : Definition.symbols source = t.symbols

/-- All words of the definition, entered from left to right. -/
def names (t : SyntaxTree) : NameTable :=
  (NameTable.empty.lookup (t.symbols.filterMap Symbol.word?)).2

/-- The board that the definition describes. -/
def board (t : SyntaxTree) (passLimit : Nat) : Board where
  names := t.names
  circuit := t.layout.circuit t.names passLimit
  probes := t.layout.probes t.names

end SyntaxTree

end Definition

end Breadboard
