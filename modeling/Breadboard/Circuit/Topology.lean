import Breadboard.Circuit.Basic

/-!
# Topology

The circuit as a graph: a node for each device and an edge for each input that is driven,
from the device that drives it. The graph can be written in the DOT language.
-/
namespace Breadboard

structure Topology.Edge where
  /-- The position of the driving device. -/
  source : Nat
  /-- The position of the driven device. -/
  target : Nat
  label : String
  deriving DecidableEq, Repr

/-- A graph whose nodes are known by their position. -/
structure Topology where
  /-- The label of each node. -/
  nodes : List String
  edges : List Topology.Edge
  deriving DecidableEq, Repr

namespace Circuit

def position (c : Circuit) (id : NameId) : Nat := c.devices.findIdx (·.id == id)

/-- The edge label of a connection: the pins it joins, as far as they have names. -/
def wireLabel (source : OutputPin) (target : InputPin) : String :=
  match source.name? with
  | some output => s!"{output} -> {target.name}"
  | none => target.name

/-- The graph of the circuit. Edges are in the order of the driven inputs. -/
def topology (c : Circuit) (names : NameTable) : Topology where
  nodes := c.devices.map fun d => s!"{names.displayName d.id} ({d.kind.keyword})"
  edges := c.devices.flatMap fun d =>
    d.inputs.filterMap fun (pin, driver) =>
      driver.map fun t =>
        { source := c.position t.device, target := c.position d.id, label := wireLabel t.pin pin }

end Circuit

namespace Topology

/-- A label as it is written between quotes: quotes and backslashes are escaped, and a line
feed ends a line aligned to the left. -/
def escape : List Char → List Char
  | [] => []
  | c :: rest =>
    if c = '"' || c = '\\' then '\\' :: c :: escape rest
    else if c = '\n' then '\\' :: 'l' :: escape rest
    else c :: escape rest

def quote (label : String) : String := "\"" ++ String.ofList (escape label.toList) ++ "\""

/-- The graph in the DOT language. -/
def dot (g : Topology) : String :=
  let node (i : Nat) (label : String) : String := s!"    {i} [ label = " ++ quote label ++ " ]\n"
  let edge (e : Edge) : String :=
    s!"    {e.source} -> {e.target} [ label = " ++ quote e.label ++ " ]\n"
  "digraph \x7b\n" ++ String.join (g.nodes.mapIdx node) ++ String.join (g.edges.map edge) ++
    "\x7d\n"

end Topology

end Breadboard
