import Breadboard.Circuit.Cycle
import Breadboard.Definition.File

/-!
# Sessions

A session is a board under simulation together with the number of cycles recorded. Loading a
definition opens a session; every later step keeps the names, the devices and the connections
and changes only levels, switches, probes and traces.
-/
namespace Breadboard

/-- Bounds on what a definition may hold and on how long a circuit may take to settle. -/
structure Limits where
  /-- The most lines that a section may have. -/
  lines : Nat := 500
  /-- The passes that a cycle may take, unless the circuit itself needs more. -/
  passes : Nat := 20
  deriving DecidableEq, Repr

/-- Limits of which either may be left at its usual value. -/
def Limits.ofOptions (lines passes : Option Nat) : Limits :=
  let usual : Limits := {}
  { lines := lines.getD usual.lines, passes := passes.getD usual.passes }

structure Session where
  board : Board
  /-- The cycles recorded since loading or the last reset. -/
  cycles : Nat := 0
  deriving DecidableEq, Repr

/-- The number of issues of a definition, in words. -/
def issueCount (n : Nat) : String :=
  if n = 1 then "Circuit definition has 1 error" else s!"Circuit definition has {n} errors"

namespace Session

/-- Opens a session on a definition, unless there are issues in it. What has to be told comes
along in both cases. -/
def load (limits : Limits) (source : String) :
    List Notice × Except (List Definition.Diagnostic) Session :=
  let r := Definition.readOnto (.empty limits.passes) limits.lines source
  if r.accepted then
    let loaded :=
      s!"Loaded {r.board.circuit.size} devices with {r.board.probes.size} monitors"
    (r.notices ++ [.info loaded], .ok { board := r.board })
  else (r.notices, .error r.diagnostics)

/-- Simulates one cycle without recording it. -/
def execute (s : Session) : Except Unrest Unit × Session :=
  let (result, circuit) := s.board.circuit.cycle
  (result, { s with board := { s.board with circuit } })

def record (s : Session) : Session := { board := s.board.record, cycles := s.cycles + 1 }

/-- Simulates and records cycles, up to the first one that does not come to rest. -/
def run : Nat → Session → Except Unrest Unit × Session
  | 0, s => (.ok (), s)
  | n + 1, s =>
    match s.execute with
    | (.ok (), s) => run n s.record
    | (.error unrest, s) => (.error unrest, s)

/-- What a run of a given number of cycles tells. -/
def runNotice (cycles : Nat) (result : Except Unrest Unit) (s : Session) : Notice :=
  match result with
  | .ok () => .info s!"Ran {cycles} cycles, {s.cycles} completed in total"
  | .error unrest => unrest.notice

/-- Goes back to the state in which the power comes on, with empty traces. Connections,
switches and probes are kept. -/
def reset (s : Session) : Session where
  board :=
    { s.board with circuit := s.board.circuit.reset, probes := s.board.probes.clear }
  cycles := 0

def setSwitch (s : Session) (id : NameId) (closed : Bool) : Except DeviceError Session :=
  (s.board.circuit.setSwitch id closed).map fun circuit =>
    { s with board := { s.board with circuit } }

/-- Takes the probe off a signal or puts one on, which starts with a blank for each cycle
recorded so far. -/
def toggle (s : Session) (name : String) : Except ProbeError (Bool × Session) :=
  (s.board.toggle name s.cycles).map fun (probed, board) => (probed, { s with board })

end Session

end Breadboard
