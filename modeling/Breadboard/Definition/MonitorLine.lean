import Breadboard.Definition.Reference

/-!
# Monitor lines

    monitor = signal { "," signal } ";"

Each signal gets a probe. A signal that cannot be probed is reported, and the line goes on
with the next one.
-/
namespace Breadboard.Definition

/-- Puts a probe on a signal, or reports why there can be none. -/
def Draft.monitor (d : Draft) (r : Reference) : Draft :=
  match d.output r with
  | .error issue => d.report issue
  | .ok output =>
    match d.probes.add d.circuit output 0 with
    | .ok probes => { d with probes }
    | .error (.present _ _) => d.report ((Fault.alreadyMonitored r.describe).on r.name)
    | .error e =>
      d.report ((Fault.internal s!"monitoring '{r.describe}': {e.message}").on r.name)

/-- Reads one line of the section of monitors, from any of its signals on. -/
def readMonitorLine (c : Cursor) (d : Draft) : Cursor × Draft :=
  match _h : readReference d.declared c with
  | .error issue => d.abandonLine c issue
  | .ok (r, c') =>
    if c'.isAt .comma then readMonitorLine c'.advance (d.monitor r)
    else (d.monitor r).endLine c'
termination_by c.ahead.length
decreasing_by
  exact Nat.lt_of_le_of_lt c'.suffix_advance.length_le (length_readReference_lt _h)

theorem suffix_readMonitorLine (c : Cursor) (d : Draft) :
    (readMonitorLine c d).1.ahead <:+ c.ahead := by
  fun_induction readMonitorLine c d with
  | case1 c => exact c.suffix_skipLine
  | case2 c _ _ c' h _ ih => exact ih.trans (c'.suffix_advance.trans (suffix_readReference h))
  | case3 c _ _ c' h => exact (Draft.suffix_endLine _ _).trans (suffix_readReference h)

end Breadboard.Definition
