import Breadboard.Circuit.Topology
import Breadboard.Console.Arguments
import Breadboard.Console.Disk
import Breadboard.Probe.Report
import Breadboard.Probe.Waveform

/-!
# Running commands

`check` reads a definition and says whether it is valid. `simulate` sets switches and probes,
runs the circuit and writes the report, and on request the waveforms and the topology. When a
cycle does not come to rest, the cycles before it are still written out.
-/
namespace Breadboard.Console

/-- Why a command failed. -/
inductive Failure where
  | invalidCircuit (issues : Nat)
  | notASwitch (name : String)
  | probe (e : ProbeError)
  /-- A cycle did not come to rest after `done` of `cycles` cycles. -/
  | unrest (done cycles : Nat) (e : Unrest)
  | load (path : String) (e : FileError)
  | file (e : FileError)
  deriving DecidableEq, Repr

namespace Failure

/-- The failure in words, and below it what caused it. -/
def chain : Failure → List String
  | invalidCircuit issues => [issueCount issues]
  | notASwitch name => [s!"'{name}' is not a switch"]
  | probe e => [e.message]
  | unrest done cycles e => [s!"Simulation stopped after {done} of {cycles} cycles", e.message]
  | load path e => [s!"Could not read {path}: {e.message}", e.message]
  | file e => [e.message]

def message (f : Failure) : String := f.chain.headD ""

end Failure

/-- What a command prints, and what it tells on the way. -/
structure Output where
  out : String := ""
  err : String := ""
  notices : List Notice := []

/-- The work of a command on the files of `m`. -/
abbrev Job (m : Type → Type) := ExceptT Failure (StateT Output m)

namespace Job

variable {m : Type → Type} [Monad m]

def tell (ns : List Notice) : Job m Unit :=
  modify fun o => { o with notices := o.notices ++ ns }

def print (text : String) : Job m Unit := modify fun o => { o with out := o.out ++ text }

def printError (text : String) : Job m Unit := modify fun o => { o with err := o.err ++ text }

/-- Asks the disk for something, and fails if it refuses. -/
def ask {α : Type} (failure : FileError → Failure) (action : m (Except FileError α)) : Job m α :=
  do match ← action with
    | .ok a => return a
    | .error e => throw (failure e)

/-- Creates a file with a given text. -/
def save (disk : Disk m) (path text : String) : Job m Unit := do
  let file ← ask .file (disk.create path)
  disk.write file text

/-- Opens a session on a definition file. The issues of a definition are printed. -/
def openSession (disk : Disk m) (limits : Limits) (path : String) : Job m Session := do
  let source ← ask (.load path) (disk.read path)
  let (notices, result) := Session.load limits source
  tell notices
  match result with
  | .ok s => return s
  | .error diagnostics =>
    printError (Definition.Diagnostic.renderAll diagnostics)
    throw (.invalidCircuit diagnostics.length)

def applySwitch (s : Session) (setting : SwitchSetting) : Job m Session := do
  let some id := s.board.device? setting.name | throw (.notASwitch setting.name)
  match s.setSwitch id setting.closed with
  | .error _ => throw (.notASwitch setting.name)
  | .ok s =>
    let level := if setting.closed then "1" else "0"
    tell [.info s!"Switch {setting.name} set to {level}"]
    return s

def applyToggle (s : Session) (name : String) : Job m Session := do
  match s.toggle name with
  | .error e => throw (.probe e)
  | .ok (probed, s) =>
    let change := if probed then "Monitoring" else "Stopped monitoring"
    tell [.info s!"{change} {name}"]
    return s

end Job

open Job

variable {m : Type → Type} [Monad m]

def check (disk : Disk m) (a : CheckArguments) : Job m Unit := do
  let s ← openSession disk a.limits a.input
  tell [.info s!"{a.input} has no errors"]
  let probed := s.board.monitored.length
  let outputs := probed + s.board.unmonitored.length
  print <| s!"{a.input}: {s.board.circuit.size} devices, " ++
    s!"{probed} of {outputs} outputs monitored\n"

/-- Simulates a circuit. The file for the report is created first and written last but one. -/
def simulate (disk : Disk m) (a : SimulateArguments) : Job m Unit := do
  let report ← a.report.mapM fun path => ask .file (disk.create path)
  let s ← openSession disk a.limits a.input
  let s ← a.switches.foldlM applySwitch s
  let s ← a.toggles.foldlM applyToggle s
  if let some path := a.dot then
    save disk path (s.board.circuit.topology s.board.names).dot
  let (result, s) := Session.run a.cycles s
  tell [Session.runNotice a.cycles result s]
  match report with
  | some file => disk.write file (s.board.report s.cycles)
  | none => print (s.board.report s.cycles)
  if let some path := a.vcd then
    save disk path s.board.waveform
  if let .error e := result then
    throw (.unrest s.cycles a.cycles e)

/-- Runs a command: whether it failed, and what it printed. -/
def Command.run (disk : Disk m) (c : Command) : m (Except Failure Unit × Output) :=
  let job : Job m Unit := match c with
    | .check a => Console.check disk a
    | .simulate a => Console.simulate disk a
  StateT.run (ExceptT.run job) {}

end Breadboard.Console
