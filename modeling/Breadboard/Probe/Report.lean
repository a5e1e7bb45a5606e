import Breadboard.Board
import Breadboard.Text.Table

/-!
# Reports

The traces of a board as a table with one row for each probed signal.
-/
namespace Breadboard.Board

def traceTable (b : Board) : Text.Table where
  title := ["Signal", "Trace"]
  rows := b.traces.map fun (name, trace) => [name, trace.text]

/-- The table under a line that says how many cycles were simulated. -/
def report (b : Board) (cycles : Nat) : String :=
  let unit := if cycles = 1 then "cycle" else "cycles"
  s!"Simulated {cycles} {unit}:\n" ++ b.traceTable.render

end Breadboard.Board
