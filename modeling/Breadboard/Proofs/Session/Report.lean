import Breadboard.Proofs.Probe.Report
import Breadboard.Proofs.Probe.Waveform
import Breadboard.Proofs.Session.SignalTexts
import Breadboard.Proofs.Session.Traces

/-!
# Reports can be read back

A blank in a trace looks like those that fill its column, and the width of a column is a matter of
all rows. A reader gets the traces back nevertheless: in a session, every trace has one entry for
each cycle, so the first line says where the traces end, and no signal name has a blank or a bar
in it.

* `Board.map_fst_traces`, `Board.exists_of_mem_traces`: the rows of a report.
* `Board.Worded.isLabel`, `Session.size_of_mem_traces`: what a reader relies on.
* `Session.report_reads_back`: the main result, for every sequence of steps.
-/
namespace Breadboard

namespace Board

variable {b : Board} {row : String × Trace}

/-- There is a row for each probed signal, in the order of the circuit. -/
theorem map_fst_traces (b : Board) : b.traces.map Prod.fst = b.monitored := by
  have hrows := (Waveform.forall₂_traces b.probes b.circuit).imp fun _ _ h => h.1
  have hprobed : (b.probes.traces b.circuit).map Prod.fst =
      b.circuit.terminals.filter b.probes.contains := by
    rw [← List.forall₂_eq_eq_eq, List.forall₂_map_left_iff]
    exact hrows.flip
  rw [monitored, ← hprobed, traces, List.map_map, List.map_map]
  rfl

/-- A row has the name and the trace of one output. -/
theorem exists_of_mem_traces (h : row ∈ b.traces) :
    ∃ t ∈ b.circuit.terminals, row.1 = b.signalName t ∧ b.probes.trace? t = some row.2 := by
  obtain ⟨⟨t, samples⟩, hmem, rfl⟩ := List.mem_map.1 h
  obtain ⟨t', ht, hsome⟩ := List.mem_filterMap.1 hmem
  obtain ⟨samples', htrace, heq⟩ := Option.map_eq_some_iff.1 hsome
  cases heq
  exact ⟨t, ht, rfl, htrace⟩

theorem Named.trace?_of_mem_traces (h : b.Named) (hrow : row ∈ b.traces) :
    b.trace? row.1 = some row.2 := by
  obtain ⟨t, ht, hname, htrace⟩ := exists_of_mem_traces hrow
  rw [hname, h.trace?_signalName ht, htrace]

/-- The names of signals can be told from what is around them in a row. -/
theorem Worded.isLabel (h : b.Worded) (hrow : row ∈ b.traces) : Report.IsLabel row.1 := by
  obtain ⟨t, ht, hname, -⟩ := exists_of_mem_traces hrow
  have hid := device_mem_ids_of_mem_terminals ht
  obtain ⟨hblank, hbar, hnewline⟩ : Text.isAlphanumeric ' ' = false ∧
      Text.isAlphanumeric '|' = false ∧ Text.isAlphanumeric '\n' = false := by
    decide +kernel
  rw [hname]
  exact ⟨h.signalName_ne_nil hid, h.notMem_signalName hid hblank (by decide),
    h.notMem_signalName hid hbar (by decide), h.notMem_signalName hid hnewline (by decide)⟩

/-- A report shows nothing but the number of cycles and the traces. -/
theorem report_congr {b' : Board} {cycles cycles' : Nat} (hcycles : cycles' = cycles)
    (htraces : b'.traces = b.traces) : b'.report cycles' = b.report cycles := by
  unfold report traceTable
  rw [hcycles, htraces]

end Board

namespace Session

variable {limits : Limits} {source : String} {s₀ : Session}

theorem size_of_mem_traces (hload : (load limits source).2 = .ok s₀) (steps : List Step)
    {row : String × Trace} (hrow : row ∈ (s₀.afterAll steps).board.traces) :
    row.2.size = (s₀.afterAll steps).cycles := by
  have hstart : Aligned {} s₀ := .of_reset_eq (wellFormed_of_load hload) (reset_eq_of_load hload)
  have ha := hstart.afterAll steps
  obtain ⟨t, -, -, htrace⟩ := Board.exists_of_mem_traces hrow
  rw [ha.cycles, (ha.tells htrace).size]

/-- In every session on a definition, the report is read as the cycles and the traces. -/
theorem decode?_report (hload : (load limits source).2 = .ok s₀) (steps : List Step) :
    Report.decode? ((s₀.afterAll steps).board.report (s₀.afterAll steps).cycles) =
      some ((s₀.afterAll steps).cycles, (s₀.afterAll steps).board.traces) :=
  Report.decode?_report (fun _ => (worded_afterAll hload steps).isLabel)
    fun _ => size_of_mem_traces hload steps

/-- **Reports.** Whatever is done in a session on a definition, its report can be read back. The
reader gets the number of cycles and a row for each probed signal, in the order of the circuit and
with its whole trace. So the reports of two sessions are the same just if they have had as many
cycles and the same signals are probed in them, with the same traces. -/
theorem report_reads_back (hload : (load limits source).2 = .ok s₀) (steps : List Step) :
    let s := s₀.afterAll steps
    Report.decode? (s.board.report s.cycles) = some (s.cycles, s.board.traces) ∧
      s.board.traces.map Prod.fst = s.board.monitored ∧
      (∀ row ∈ s.board.traces, row.2.size = s.cycles ∧ s.board.trace? row.1 = some row.2) ∧
      ∀ {limits' : Limits} {source' : String} {s₁ : Session},
        (load limits' source').2 = .ok s₁ → ∀ steps' : List Step,
          let s' := s₁.afterAll steps'
          s'.board.report s'.cycles = s.board.report s.cycles ↔
            s'.cycles = s.cycles ∧ s'.board.monitored = s.board.monitored ∧
              s'.board.traces = s.board.traces := by
  intro s
  refine ⟨decode?_report hload steps, s.board.map_fst_traces, fun row hrow =>
    ⟨size_of_mem_traces hload steps hrow,
      (worded_afterAll hload steps).named.trace?_of_mem_traces hrow⟩, ?_⟩
  intro limits' source' s₁ hload' steps' s'
  constructor
  · intro hreport
    have hread := (congrArg Report.decode? hreport).symm.trans (decode?_report hload' steps')
    rw [decode?_report hload steps] at hread
    obtain ⟨hcycles, htraces⟩ := Prod.mk.inj (Option.some.inj hread)
    refine ⟨hcycles.symm, ?_, htraces.symm⟩
    rw [← s'.board.map_fst_traces, ← s.board.map_fst_traces, ← htraces]
  · rintro ⟨hcycles, -, htraces⟩
    exact Board.report_congr hcycles htraces

/-- The clock is probed after two cycles, so that its row is blank to the end, and yet two of the
blanks are read as its trace. With the switch turned as well, the session is another one. Its report
is the same, and so it has the same traces. -/
theorem gatedRing_report_reads_back :
    (load { passes := 0 } gatedRingText).2 = .ok gatedRing ∧
      Report.decode? ("Simulated 2 cycles:\n" ++
          "+--------+-------+\n" ++
          "| Signal | Trace |\n" ++
          "+--------+-------+\n" ++
          "| C      |       |\n" ++
          "| G      | ##    |\n" ++
          "+--------+-------+\n") =
        some (2, [("C", #[.blank, .blank]), ("G", #[.high, .high])]) ∧
      gatedRing.afterAll [.run 5, .record, .setSwitch ⟨3⟩ false, .toggle "C"] ≠
        gatedRing.afterAll [.run 5, .record, .toggle "C"] ∧
      (gatedRing.afterAll [.run 5, .record, .setSwitch ⟨3⟩ false, .toggle "C"]).board.traces =
        (gatedRing.afterAll [.run 5, .record, .toggle "C"]).board.traces := by
  obtain ⟨hcycles, htraces, hreport⟩ :
      (gatedRing.afterAll [.run 5, .record, .toggle "C"]).cycles = 2 ∧
        (gatedRing.afterAll [.run 5, .record, .toggle "C"]).board.traces =
          [("C", #[.blank, .blank]), ("G", #[.high, .high])] ∧
        (gatedRing.afterAll [.run 5, .record, .toggle "C"]).board.report 2 =
          "Simulated 2 cycles:\n" ++
            "+--------+-------+\n" ++
            "| Signal | Trace |\n" ++
            "+--------+-------+\n" ++
            "| C      |       |\n" ++
            "| G      | ##    |\n" ++
            "+--------+-------+\n" := by
    decide +kernel
  obtain ⟨hother, hsame⟩ :
      gatedRing.afterAll [.run 5, .record, .setSwitch ⟨3⟩ false, .toggle "C"] ≠
          gatedRing.afterAll [.run 5, .record, .toggle "C"] ∧
        (gatedRing.afterAll [.run 5, .record, .setSwitch ⟨3⟩ false, .toggle "C"]).board.report
            (gatedRing.afterAll [.run 5, .record, .setSwitch ⟨3⟩ false, .toggle "C"]).cycles =
          (gatedRing.afterAll [.run 5, .record, .toggle "C"]).board.report
            (gatedRing.afterAll [.run 5, .record, .toggle "C"]).cycles := by
    decide +kernel
  obtain ⟨hread, -, -, hiff⟩ :=
    report_reads_back load_gatedRing [.run 5, .record, .toggle "C"]
  rw [hcycles, hreport, htraces] at hread
  exact ⟨load_gatedRing, hread, hother, ((hiff load_gatedRing _).1 hsame).2.2⟩

end Session

end Breadboard
