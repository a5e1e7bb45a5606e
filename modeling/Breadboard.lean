import Breadboard.Console.Folder
import Breadboard.Main
import Breadboard.Proofs.Circuit.Quiescence
import Breadboard.Proofs.Circuit.Stability
import Breadboard.Proofs.Circuit.Synchronous
import Breadboard.Proofs.Definition.Grammar
import Breadboard.Proofs.Definition.Layout
import Breadboard.Proofs.Definition.Reads
import Breadboard.Proofs.Definition.DeviceLines
import Breadboard.Proofs.Definition.DeviceOutcomes
import Breadboard.Proofs.Definition.References
import Breadboard.Proofs.Definition.ConnectionLines
import Breadboard.Proofs.Definition.MonitorLines
import Breadboard.Proofs.Definition.Lines
import Breadboard.Proofs.Definition.WellFormed
import Breadboard.Proofs.Definition.Sections
import Breadboard.Proofs.Definition.Acceptance
import Breadboard.Proofs.Circuit.Order
import Breadboard.Proofs.Circuit.WellFormed
import Breadboard.Proofs.Board.Operations
import Breadboard.Proofs.Board.Appending
import Breadboard.Proofs.Circuit.Reset
import Breadboard.Proofs.Session.Steps
import Breadboard.Proofs.Session.Traces
import Breadboard.Proofs.Session.Reset
import Breadboard.Proofs.Definition.Lexemes
import Breadboard.Proofs.Definition.Tokens
import Breadboard.Proofs.Definition.InOrder
import Breadboard.Proofs.Definition.Faults
import Breadboard.Proofs.Definition.Headers
import Breadboard.Proofs.Definition.Reliability
import Breadboard.Proofs.Definition.Places
import Breadboard.Proofs.Definition.Passing
import Breadboard.Proofs.Definition.DiagnosticOrder
import Breadboard.Proofs.Definition.EarlierIssues
import Breadboard.Proofs.Definition.Joining
import Breadboard.Proofs.Definition.UnendedLines
import Breadboard.Proofs.Definition.MissingSemicolon
import Breadboard.Proofs.Probe.Dump
import Breadboard.Proofs.Probe.Waveform
import Breadboard.Proofs.Circuit.RippleCounter
import Breadboard.Proofs.Circuit.PassLimit
import Breadboard.Proofs.Definition.Elaboration
import Breadboard.Proofs.Session.PassLimit
import Breadboard.Proofs.Board.SignalNames
import Breadboard.Proofs.Session.SignalNames
import Breadboard.Proofs.Circuit.Relabelling
import Breadboard.Proofs.Definition.RenamedText
import Breadboard.Proofs.Definition.RenamedTree
import Breadboard.Proofs.Session.Renaming
import Breadboard.Proofs.Console.Interruption
import Breadboard.Proofs.Definition.Respacing
import Breadboard.Proofs.Definition.StrayCharacters
import Breadboard.Proofs.Definition.Carets
import Breadboard.Proofs.Definition.InFile
import Breadboard.Proofs.Definition.LineProgress
import Breadboard.Proofs.Circuit.EdgeTriggering
import Breadboard.Proofs.Circuit.PositiveFeedback
import Breadboard.Proofs.Board.ClockPhase
import Breadboard.Proofs.Board.PowerOn
import Breadboard.Proofs.Circuit.Pins
import Breadboard.Proofs.Circuit.Links
import Breadboard.Proofs.Board.Toggling
import Breadboard.Proofs.Session.Toggling
import Breadboard.Proofs.Board.Refusals
import Breadboard.Proofs.Definition.Linking
import Breadboard.Proofs.Board.Topology
import Breadboard.Proofs.Definition.ConnectionOutcomes
import Breadboard.Proofs.Names.Numbering
import Breadboard.Proofs.Session.SignalTexts
import Breadboard.Proofs.Session.WireNames
import Breadboard.Proofs.Probe.Report
import Breadboard.Proofs.Session.Report
