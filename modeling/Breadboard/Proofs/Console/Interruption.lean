import Breadboard.Console.Folder
import Breadboard.Proofs.Console.Jobs
import Breadboard.Proofs.Session.Traces

/-!
# Simulations that are cut short

When a cycle does not come to rest, a simulation writes out the cycles before it and fails. That
cycle has changed levels by then, but nothing that is written shows them: the files are those of a
simulation of the earlier cycles alone.

* `Session.report_execute`, `Session.waveform_execute`: what is written of a board does not show the
  levels of its circuit.
* `simulate_eq`: a simulation prepares, runs and writes out.
* `simulate_of_unrest`: the main result, for all files and arguments.
-/
namespace Breadboard

/-! ## What is written -/

namespace Session

/-- Nothing has been recorded yet. -/
def AtStart (s : Session) : Prop := s.cycles = 0

theorem traces_execute (s : Session) : s.execute.2.board.traces = s.board.traces := by
  have hterminals : s.execute.2.board.circuit.terminals = s.board.circuit.terminals :=
    Circuit.terminals_of_bare_eq (Circuit.bare_cycle s.board.circuit)
  simp only [Board.traces, Probes.traces, hterminals]
  rfl

theorem report_execute (s : Session) (cycles : Nat) :
    s.execute.2.board.report cycles = s.board.report cycles := by
  simp only [Board.report, Board.traceTable, traces_execute]

theorem waveform_execute (s : Session) : s.execute.2.board.waveform = s.board.waveform := by
  simp only [Board.waveform, Waveform.wires, traces_execute]

end Session

namespace Console

open Job

/-! ## The parts of a simulation -/

section
variable {m : Type → Type} [Monad m]

/-- What is done before the first cycle: the file for the report, and the session. -/
def prepare (disk : Disk m) (a : SimulateArguments) : Job m (Option disk.File × Session) := do
  let report ← a.report.mapM fun path => ask .file (disk.create path)
  let s ← openSession disk a.limits a.input
  let s ← a.switches.foldlM applySwitch s
  let s ← a.toggles.foldlM applyToggle s
  if let some path := a.dot then
    save disk path (s.board.circuit.topology s.board.names).dot
  return (report, s)

/-- Writes out what was recorded. -/
def writeOut (disk : Disk m) (report : Option disk.File) (vcd : Option String) (s : Session) :
    Job m Unit := do
  match report with
  | some file => disk.write file (s.board.report s.cycles)
  | none => print (s.board.report s.cycles)
  if let some path := vcd then
    save disk path s.board.waveform

/-- What is done from the first cycle on. -/
def finish (disk : Disk m) (a : SimulateArguments) (report : Option disk.File)
    (run : Except Unrest Unit × Session) : Job m Unit := do
  tell [Session.runNotice a.cycles run.1 run.2]
  writeOut disk report a.vcd run.2
  if let .error e := run.1 then
    throw (.unrest run.2.cycles a.cycles e)

/-- A simulation prepares, runs the circuit and writes out. -/
theorem simulate_eq [LawfulMonad m] (disk : Disk m) (a : SimulateArguments) :
    simulate disk a =
      prepare disk a >>= fun (report, s) => finish disk a report (s.run a.cycles) := by
  simp only [simulate, prepare, writeOut, finish, bind_assoc]
  refine bind_congr fun report => bind_congr fun s => bind_congr fun s => bind_congr fun s => ?_
  cases a.dot <;> simp only [bind_assoc, pure_bind]
  all_goals
    generalize s.run a.cycles = run
    rcases run with ⟨_ | _, _⟩ <;> cases report <;> cases a.vcd <;>
      simp only [bind_assoc, pure_bind]

end

variable {σ : Type} {disk : Disk (StateM σ)} {a : SimulateArguments}

/-! ## Before the first cycle -/

theorem yields_openSession (limits : Limits) (path : String) :
    Yields Session.AtStart (openSession disk limits path) := by
  refine (Yields.ask _ fun _ => rfl).bind fun source _ => ?_
  rcases hload : Session.load limits source with ⟨notices, diagnostics | s⟩
  · exact (Yields.tell _).bind fun _ _ => (Yields.printError _).bind fun _ _ =>
      Yields.throw (e := .invalidCircuit diagnostics.length) rfl
  · have hs : s.AtStart := by
      rw [Session.eq_of_load (congrArg Prod.snd hload)]
      rfl
    exact (Yields.tell _).bind fun _ _ => Yields.pure hs

theorem yields_applySwitch (s : Session) (setting : SwitchSetting) (hs : s.AtStart) :
    Yields (σ := σ) Session.AtStart (applySwitch s setting) := by
  have hrefused : Yields (σ := σ) Session.AtStart (throw (.notASwitch setting.name)) := .throw rfl
  unfold applySwitch
  cases s.board.device? setting.name with
  | none => exact hrefused
  | some id =>
    cases hset : s.setSwitch id setting.closed with
    | error e => simpa only [hset] using hrefused
    | ok s' =>
      obtain ⟨circuit, -, rfl⟩ := Session.setSwitch_eq_ok_iff.1 hset
      simp only [hset]
      exact (Yields.tell _).bind fun _ _ => .pure hs

theorem yields_applyToggle (s : Session) (name : String) (hs : s.AtStart) :
    Yields (σ := σ) Session.AtStart (applyToggle s name) := by
  unfold applyToggle
  rcases htoggle : s.toggle name with e | ⟨probed, s'⟩
  · exact Yields.throw (e := .probe e) rfl
  · obtain ⟨board, -, rfl⟩ := Session.toggle_eq_ok_iff.1 htoggle
    exact (Yields.tell _).bind fun _ _ => Yields.pure (Q := Session.AtStart) hs

/-- A simulation that is prepared has recorded nothing yet. -/
theorem yields_prepare (disk : Disk (StateM σ)) (a : SimulateArguments) :
    Yields (fun p => p.2.AtStart) (prepare disk a) := by
  have hreport : Yields (fun _ => True)
      (a.report.mapM fun path => ask Failure.file (disk.create path)) := by
    cases a.report with
    | none => exact .pure trivial
    | some path => exact (Yields.ask _ fun _ => rfl).bind fun file _ => .pure trivial
  refine hreport.bind fun report _ => ?_
  refine (yields_openSession a.limits a.input).bind fun s hs => ?_
  refine (Yields.foldlM yields_applySwitch hs a.switches).bind fun s hs => ?_
  refine (Yields.foldlM yields_applyToggle hs a.toggles).bind fun s hs => ?_
  cases a.dot with
  | none => exact .pure hs
  | some path => exact (Yields.save disk path _).bind fun _ _ => .pure hs

/-! ## After the last cycle -/

theorem yields_writeOut (disk : Disk (StateM σ)) (report : Option disk.File) (vcd : Option String)
    (s : Session) : Yields (fun _ => True) (writeOut disk report vcd s) := by
  cases report <;> cases vcd
  · exact (Yields.print _).bind fun _ _ => .pure trivial
  · exact (Yields.print _).bind fun _ _ => .save disk _ _
  · exact (Yields.lift _).bind fun _ _ => .pure trivial
  · exact (Yields.lift _).bind fun _ _ => .save disk _ _

theorem plain_writeOut (disk : Disk (StateM σ)) (report : Option disk.File) (vcd : Option String)
    (s : Session) : Plain (writeOut disk report vcd s) := by
  cases report <;> cases vcd
  · exact (Plain.print _).bind fun _ => .pure ()
  · exact (Plain.print _).bind fun _ => .save disk _ _
  · exact (Plain.lift _).bind fun _ => .pure ()
  · exact (Plain.lift _).bind fun _ => .save disk _ _

theorem outcome_finish (report : Option disk.File) (run : Except Unrest Unit × Session)
    (o : Output) (w : σ) :
    (finish disk a report run).outcome o w =
      match (writeOut disk report a.vcd run.2).outcome
        { o with notices := o.notices ++ [Session.runNotice a.cycles run.1 run.2] } w with
      | ((.error e, o), w) => ((.error e, o), w)
      | ((.ok (), o), w) =>
        match run.1 with
        | .ok () => ((.ok (), o), w)
        | .error e => ((.error (.unrest run.2.cycles a.cycles e), o), w) := by
  simp only [finish, outcome_bind, outcome_tell]
  rcases (writeOut disk report a.vcd run.2).outcome _ w with ⟨⟨_ | ⟨⟩, o'⟩, w'⟩
  · rfl
  · rcases run with ⟨_ | ⟨⟩, s⟩ <;> rfl

/-- What is written of a session after a cycle that does not come to rest is what is written of the
session before it. -/
theorem writeOut_execute (disk : Disk (StateM σ)) (report : Option disk.File) (vcd : Option String)
    (s : Session) : writeOut disk report vcd s.execute.2 = writeOut disk report vcd s := by
  simp only [writeOut, Session.report_execute, Session.waveform_execute]
  rfl

/-! ## The main result -/

theorem run_simulate (disk : Disk (StateM σ)) (a : SimulateArguments) (w : σ) :
    (Command.run disk (.simulate a)).run w =
      match (prepare disk a).outcome {} w with
      | ((.ok (report, s), o), w) => (finish disk a report (s.run a.cycles)).outcome o w
      | ((.error e, o), w) => ((.error e, o), w) := by
  have hrun : (Command.run disk (.simulate a)).run w = (simulate disk a).outcome {} w := rfl
  rw [hrun, simulate_eq, outcome_bind]
  rcases (prepare disk a).outcome {} w with ⟨⟨_ | ⟨report, s⟩, o⟩, w'⟩ <;> rfl

/-- **Interruption.** When a simulation fails because a cycle does not come to rest, after some
number of complete cycles, then a simulation of that many cycles with the same arguments succeeds,
prints the same, and leaves all files as they are left by the one that failed. -/
theorem simulate_of_unrest (disk : Disk (StateM σ)) (a : SimulateArguments) {w w' : σ}
    {o : Output} {done cycles : Nat} {e : Unrest}
    (h : (Command.run disk (.simulate a)).run w = ((.error (.unrest done cycles e), o), w')) :
    cycles = a.cycles ∧ done < a.cycles ∧
      ∃ notices, (Command.run disk (.simulate { a with cycles := done })).run w =
        ((.ok (), { o with notices }), w') := by
  have hprepared := yields_prepare disk a {} w
  rcases hprepare : (prepare disk a).outcome {} w with ⟨⟨e₁ | ⟨report, s⟩, o₁⟩, w₁⟩
  · rw [run_simulate, hprepare] at h
    rw [hprepare] at hprepared
    cases h
    cases hprepared
  have hstart : s.cycles = 0 := by
    rw [hprepare] at hprepared
    exact hprepared
  -- What comes before the first cycle is the same for every number of cycles.
  have hrun (n : Nat) : (Command.run disk (.simulate { a with cycles := n })).run w =
      (finish disk { a with cycles := n } report (s.run n)).outcome o₁ w₁ := by
    rw [run_simulate, show prepare disk { a with cycles := n } = prepare disk a from rfl, hprepare]
  obtain ⟨r, text, w₂, hwrite⟩ := plain_writeOut disk report a.vcd (s.run a.cycles).2 w₁
  have hwritten := yields_writeOut disk report a.vcd (s.run a.cycles).2 o₁ w₁
  simp only [show (Command.run disk (.simulate a)).run w = _ from hrun a.cycles, outcome_finish,
    hwrite] at h hwritten
  rcases r with e₂ | ⟨⟩
  · cases h
    cases hwritten
  rcases hresult : (s.run a.cycles).1 with unrest | ⟨⟩
  -- The cycle that was cut short is the one after those that were recorded, and it is not shown.
  · have hcut := Session.cutShort_of_run_error hresult
    generalize (s.recordings a.cycles).length = k at hcut
    have hsame : writeOut disk report a.vcd (s.run k).2 =
        writeOut disk report a.vcd (s.run a.cycles).2 := by
      rw [hcut.session, writeOut_execute]
    rw [hresult, hcut.cycles, hstart, Nat.zero_add] at h
    cases h
    refine ⟨rfl, hcut.lt, o₁.notices ++ [Session.runNotice done (.ok ()) (s.run done).2], ?_⟩
    rw [hrun]
    simp only [outcome_finish, hsame, hwrite, hcut.rest]
  · rw [hresult] at h
    cases h

/-- A folder with a gate that drives one of its own inputs. -/
def gatedRingFolder : Folder := { files := [(["ring.def"], Session.gatedRingText.toUTF8)] }

def gatedRingArguments : SimulateArguments where
  input := "ring.def"
  cycles := 5
  switches := [⟨"S", true⟩]
  toggles := ["C"]
  report := some "ring.txt"
  vcd := some "ring.vcd"
  dot := some "ring.dot"
  maxPasses := some 0
  maxLines := none

theorem run_gatedRing :
    ((Command.run Folder.disk (.simulate gatedRingArguments)).run gatedRingFolder).1.1 =
      .error (.unrest 1 5 (.outputs 4)) := by
  decide +kernel

/-- Of five cycles only the first one comes to rest, and the four files are then the same as after
that cycle alone. -/
theorem gatedRing_interrupted :
    ∃ o folder notices,
      (Command.run Folder.disk (.simulate gatedRingArguments)).run gatedRingFolder =
          ((.error (.unrest 1 5 (.outputs 4)), o), folder) ∧
        (Command.run Folder.disk (.simulate { gatedRingArguments with cycles := 1 })).run
          gatedRingFolder = ((.ok (), { o with notices }), folder) := by
  obtain ⟨⟨⟨result, o⟩, folder⟩, hrun⟩ : ∃ outcome,
      (Command.run Folder.disk (.simulate gatedRingArguments)).run gatedRingFolder = outcome :=
    ⟨_, rfl⟩
  have hresult : result = .error (.unrest 1 5 (.outputs 4)) := by
    rw [← run_gatedRing, hrun]
  rw [hresult] at hrun
  obtain ⟨-, -, notices, hone⟩ := simulate_of_unrest Folder.disk gatedRingArguments hrun
  exact ⟨o, folder, notices, hrun, hone⟩

end Console

end Breadboard
