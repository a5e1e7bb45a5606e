import Breadboard.Probe.Report
import Breadboard.Probe.Waveform
import Breadboard.Proofs.Session.Steps
import Mathlib.Data.List.Find

/-!
# Resetting sessions

A reset is as good as loading the definition again, apart from the switches and the probes: these
stay as they are. Whatever was done in a session, after a reset it cannot be told from one that has
just been loaded and in which the same switches were set and the same signals were toggled.

The probes of the two sessions may have been put on in different orders. `Same` does not see the
order, and neither does anything that is told or shown.

* `reset_afterAll`: all that a reset leaves of some steps is what they did to switches and probes.
* `Same.take`, `Same.view_eq`: sessions that are the same give the same answers, stay the same, and
  look the same.
* `same_reset_of_sameSettings`: the main result.
-/
namespace Breadboard

/-! ## Probes in another order -/

namespace Probes

variable {p p' : Probes} {c c' : Circuit}

theorem contains_eq_of_perm (h : p'.probes.Perm p.probes) (t : Terminal) :
    p'.contains t = p.contains t := by
  rw [Bool.eq_iff_iff, contains_iff, contains_iff]
  exact (h.map Probe.terminal).mem_iff

theorem trace?_eq_of_perm (hs : p.SitOn c) (h : p'.probes.Perm p.probes) (t : Terminal) :
    p'.trace? t = p.trace? t := by
  refine congrArg (Option.map Probe.trace) (List.find?_eq_find?_of_perm h.symm ?_).symm
  rintro x ⟨hx, hxt⟩ y ⟨hy, hyt⟩
  rw [beq_iff_eq] at hxt hyt
  exact List.inj_on_of_nodup_map hs.nodup hx hy (hxt.trans hyt.symm)

/-- Probes on the same outputs differ in the order at most once their traces are empty. -/
theorem clear_perm (hs : p.SitOn c) (hs' : p'.SitOn c')
    (h : ∀ t, p'.contains t = p.contains t) : p'.clear.probes.Perm p.clear.probes := by
  have hterminals : (p'.probes.map (·.terminal)).Perm (p.probes.map (·.terminal)) := by
    refine (List.perm_ext_iff_of_nodup hs'.nodup hs.nodup).2 fun t => ?_
    rw [← contains_iff, ← contains_iff, h]
  have hclear (p : Probes) : p.clear.probes = (p.probes.map (·.terminal)).map (⟨·, #[]⟩) := by
    simp [clear, Function.comp_def]
  rw [hclear, hclear]
  exact hterminals.map _

end Probes

namespace Session

variable {s s' : Session}

/-! ## What a reset keeps -/

/-- Whether a step sets a switch or toggles a signal. -/
def Step.adjusts : Step → Bool
  | .setSwitch _ _ | .toggle _ => true
  | .run _ | .execute | .record | .reset => false

theorem reset_execute (s : Session) : s.execute.2.reset = s.reset := by
  simp only [execute, reset, Circuit.reset_cycle]

theorem reset_record (s : Session) : s.record.reset = s.reset := by
  simp only [record, Board.record, reset, Probes.clear_record]

theorem reset_run (n : Nat) (s : Session) : (s.run n).2.reset = s.reset :=
  run_preserves (P := fun s' => s'.reset = s.reset) (fun s' h => (reset_execute s').trans h)
    (fun s' h => (reset_record s').trans h) n rfl

theorem reset_setSwitch (s : Session) (id : NameId) (closed : Bool) :
    s.reset.setSwitch id closed = (s.setSwitch id closed).map reset := by
  have hcircuit := Circuit.reset_setSwitch s.board.circuit id closed
  simp only [setSwitch, reset, hcircuit]
  cases s.board.circuit.setSwitch id closed <;> rfl

theorem reset_toggle (s : Session) (name : String) :
    s.reset.toggle name = (s.toggle name).map fun (probed, s') => (probed, s'.reset) := by
  have hboard : s.reset.board.toggle name s.reset.cycles = _ :=
    Board.reset_toggle s.board name s.cycles
  simp only [toggle, hboard]
  rcases s.board.toggle name s.cycles with _ | ⟨probed, board⟩ <;> rfl

/-- A step that adjusts nothing leaves nothing after a reset; one that does may as well be taken
after it. -/
theorem reset_after (s : Session) (step : Step) :
    (s.after step).reset = if step.adjusts then s.reset.after step else s.reset := by
  cases step with
  | run cycles => exact reset_run cycles s
  | execute => exact reset_execute s
  | record => exact reset_record s
  | reset => exact reset_reset s
  | setSwitch id closed =>
    simp only [after, take, Step.adjusts, reset_setSwitch, if_true]
    cases s.setSwitch id closed <;> rfl
  | toggle name =>
    simp only [after, take, Step.adjusts, reset_toggle, if_true]
    rcases s.toggle name with _ | ⟨probed, s'⟩ <;> rfl

/-- All that a reset leaves of some steps is what they did to switches and probes. -/
theorem reset_afterAll (s : Session) (steps : List Step) :
    (s.afterAll steps).reset = s.reset.afterAll (steps.filter Step.adjusts) := by
  induction steps generalizing s with
  | nil => rfl
  | cons step steps ih =>
    show ((s.after step).afterAll steps).reset = _
    rw [ih, reset_after]
    cases hadjusts : step.adjusts with
    | true => rw [List.filter_cons_of_pos hadjusts, if_pos rfl]; rfl
    | false => rw [List.filter_cons_of_neg (by simp [hadjusts])]; rfl

/-! ## Sessions that cannot be told apart -/

/-- The two sessions differ in the order in which their probes were put on at most. -/
structure Same (s s' : Session) : Prop where
  names : s'.board.names = s.board.names
  circuit : s'.board.circuit = s.board.circuit
  cycles : s'.cycles = s.cycles
  probes : s'.board.probes.probes.Perm s.board.probes.probes

/-- All that is shown of a session. -/
structure View where
  cycles : Nat
  levels : List Bool
  monitored : List String
  unmonitored : List String
  traces : List (String × Trace)
  trace? : String → Option Trace
  report : String
  waveform : String

def view (s : Session) : View where
  cycles := s.cycles
  levels := s.board.circuit.levels
  monitored := s.board.monitored
  unmonitored := s.board.unmonitored
  traces := s.board.traces
  trace? := s.board.trace?
  report := s.board.report s.cycles
  waveform := s.board.waveform

namespace Same

theorem refl (s : Session) : Same s s := ⟨rfl, rfl, rfl, .refl _⟩

theorem execute (h : Same s s') :
    s'.execute.1 = s.execute.1 ∧ Same s.execute.2 s'.execute.2 := by
  have hcycle : s'.board.circuit.cycle = s.board.circuit.cycle := by rw [h.circuit]
  have hresult : s'.board.circuit.cycle.1 = s.board.circuit.cycle.1 := by rw [hcycle]
  have hcircuit : s'.board.circuit.cycle.2 = s.board.circuit.cycle.2 := by rw [hcycle]
  exact ⟨hresult, h.names, hcircuit, h.cycles, h.probes⟩

theorem record (h : Same s s') : Same s.record s'.record where
  names := h.names
  circuit := h.circuit
  cycles := congrArg (· + 1) h.cycles
  probes := by
    simp only [Session.record, Board.record, Probes.record, h.circuit]
    exact h.probes.map _

theorem run (h : Same s s') (n : Nat) :
    (s'.run n).1 = (s.run n).1 ∧ Same (s.run n).2 (s'.run n).2 :=
  run_simulates execute record n h

theorem reset (h : Same s s') : Same s.reset s'.reset where
  names := h.names
  circuit := congrArg Circuit.reset h.circuit
  cycles := rfl
  probes := h.probes.map _

theorem setSwitch (h : Same s s') (id : NameId) (closed : Bool) :
    (s'.take (.setSwitch id closed)).1 = (s.take (.setSwitch id closed)).1 ∧
      Same (s.after (.setSwitch id closed)) (s'.after (.setSwitch id closed)) := by
  simp only [after, Session.take, Session.setSwitch, h.circuit]
  cases s.board.circuit.setSwitch id closed with
  | error refusal => exact ⟨rfl, h⟩
  | ok circuit => exact ⟨rfl, h.names, rfl, h.cycles, h.probes⟩

theorem toggle (h : Same s s') (name : String) :
    (s'.take (.toggle name)).1 = (s.take (.toggle name)).1 ∧
      Same (s.after (.toggle name)) (s'.after (.toggle name)) := by
  have hname : s'.board.terminal? name = s.board.terminal? name := by
    simp only [Board.terminal?, h.names]
  have hout (t : Terminal) : s'.board.circuit.hasTerminal t = s.board.circuit.hasTerminal t := by
    rw [h.circuit]
  have hprobe := Probes.contains_eq_of_perm h.probes
  simp only [after, Session.take, Session.toggle, h.cycles]
  rcases s.board.unknown_or_exists_output name with hnone | ⟨t, ht, hsome⟩
  · rw [Board.toggle_of_unknown hnone,
      Board.toggle_of_unknown fun t ht => (hout t).trans (hnone t (hname ▸ ht))]
    exact ⟨rfl, h⟩
  have ht' := hname.trans ht
  have hsome' := (hout t).trans hsome
  cases hon : s.board.probes.contains t with
  | true =>
    rw [Board.toggle_of_probed ht hsome hon,
      Board.toggle_of_probed ht' hsome' ((hprobe t).trans hon)]
    exact ⟨rfl, h.names, h.circuit, rfl, h.probes.filter _⟩
  | false =>
    rw [Board.toggle_of_unprobed ht hsome hon,
      Board.toggle_of_unprobed ht' hsome' ((hprobe t).trans hon)]
    exact ⟨rfl, h.names, h.circuit, rfl, h.probes.append_right _⟩

/-- Sessions that are the same give the same answer to a step, and stay the same. -/
theorem take (h : Same s s') (step : Step) :
    (s'.take step).1 = (s.take step).1 ∧ Same (s.after step) (s'.after step) := by
  cases step with
  | run cycles =>
    obtain ⟨hresult, hrun⟩ := h.run cycles
    refine ⟨?_, hrun⟩
    simp only [Session.take, runNotice, hresult, hrun.cycles]
  | execute =>
    obtain ⟨hresult, hexecute⟩ := h.execute
    exact ⟨congrArg Answer.executed hresult, hexecute⟩
  | record => exact ⟨rfl, h.record⟩
  | setSwitch id closed => exact h.setSwitch id closed
  | toggle name => exact h.toggle name
  | reset => exact ⟨rfl, h.reset⟩

theorem afterAll (h : Same s s') (steps : List Step) :
    s'.answers steps = s.answers steps ∧ Same (s.afterAll steps) (s'.afterAll steps) := by
  induction steps generalizing s s' with
  | nil => exact ⟨rfl, h⟩
  | cons step steps ih =>
    obtain ⟨hanswer, hstep⟩ := h.take step
    obtain ⟨hanswers, hsteps⟩ := ih hstep
    exact ⟨by rw [answers, answers, hanswer, hanswers], hsteps⟩

/-- Sessions that are the same look the same: nothing that is shown depends on the order in which
probes were put on. -/
theorem view_eq (h : Same s s') (hs : s.board.WellFormed) : s'.view = s.view := by
  have hcontains : s'.board.probes.contains = s.board.probes.contains :=
    funext (Probes.contains_eq_of_perm h.probes)
  have htrace : s'.board.probes.trace? = s.board.probes.trace? :=
    funext (Probes.trace?_eq_of_perm hs.probes h.probes)
  have hsignal : s'.board.signalName = s.board.signalName :=
    funext fun t => by simp only [Board.signalName, h.names]
  have hname : s'.board.trace? = s.board.trace? :=
    funext fun name => by simp only [Board.trace?, Board.terminal?, h.names, htrace]
  have htraces : s'.board.traces = s.board.traces := by
    simp only [Board.traces, Probes.traces, hsignal, h.circuit, htrace]
  simp only [view, Board.monitored, Board.unmonitored, Board.report, Board.traceTable,
    Board.waveform, Waveform.wires, h.circuit, h.cycles, hcontains, hsignal, hname, htraces]

end Same

/-! ## Reloading -/

/-- The switches of the two sessions are in the same positions, and the same outputs are probed. -/
structure SameSettings (s s' : Session) : Prop where
  switches : s.board.circuit.AgreeOn Logic.closed? s'.board.circuit
  probes : ∀ t, s'.board.probes.contains t = s.board.probes.contains t

/-- What is left of a session after a reset is a matter of the settings, as far as names and wiring
are the same. -/
theorem SameSettings.same_reset (h : SameSettings s s') (hs : s.board.WellFormed)
    (hs' : s'.board.WellFormed) (hnames : s'.board.names = s.board.names)
    (hbare : s'.board.circuit.bare = s.board.circuit.bare) : Same s.reset s'.reset where
  names := hnames
  circuit := Circuit.reset_congr hs.circuit.nodup hbare h.switches
  cycles := rfl
  probes := Probes.clear_perm hs.probes hs'.probes h.probes

/-- A reset keeps the settings, so sessions that are the same after one have the same settings. -/
theorem sameSettings_of_same_reset (h : Same s.reset s'.reset) : SameSettings s s' where
  switches := by
    have hkeeps (c : Circuit) : c.AgreeOn Logic.closed? c.reset :=
      .mapLogic (fun l => by cases l <;> rfl) c
    have hcircuit : s'.board.circuit.reset = s.board.circuit.reset := h.circuit
    exact (hkeeps _).trans (hcircuit ▸ (hkeeps _).symm)
  probes t := by
    rw [← Probes.contains_clear, ← Probes.contains_clear s.board.probes]
    exact Probes.contains_eq_of_perm h.probes t

/-- **Reset.** Whatever is done in a session, a reset makes it the same as one that has just been
loaded from the same definition and in which switches have been set and signals toggled until all
positions are the same and the same outputs are probed. Every further sequence of steps gives the
same answers in both, and both look the same after it. -/
theorem same_reset_of_sameSettings {limits : Limits} {source : String} {s₀ : Session}
    (hload : (load limits source).2 = .ok s₀) (steps : List Step) :
    (∃ adjustments : List Step, (∀ step ∈ adjustments, step.adjusts = true) ∧
        SameSettings (s₀.afterAll steps) (s₀.afterAll adjustments)) ∧
      ∀ adjustments : List Step, (∀ step ∈ adjustments, step.adjusts = true) →
        SameSettings (s₀.afterAll steps) (s₀.afterAll adjustments) →
          Same (s₀.afterAll steps).reset (s₀.afterAll adjustments) ∧
          ∀ further : List Step,
            (s₀.afterAll adjustments).answers further =
              (s₀.afterAll steps).reset.answers further ∧
            ((s₀.afterAll adjustments).afterAll further).view =
              ((s₀.afterAll steps).reset.afterAll further).view := by
  have hwf : s₀.board.WellFormed := wellFormed_of_load hload
  have hreset : s₀.reset = s₀ := reset_eq_of_load hload
  refine ⟨⟨steps.filter Step.adjusts, fun step hstep => (List.mem_filter.1 hstep).2, ?_⟩,
    fun adjustments hadjusts hsettings => ?_⟩
  · refine sameSettings_of_same_reset ?_
    rw [reset_afterAll, reset_afterAll, List.filter_filter]
    simp only [Bool.and_self]
    exact .refl _
  have hsteps := leads_afterAll s₀ steps
  have hadjusted := leads_afterAll s₀ adjustments
  -- Adjustments leave a session that has just been loaded as a reset leaves it.
  have hfresh : (s₀.afterAll adjustments).reset = s₀.afterAll adjustments := by
    rw [reset_afterAll, hreset, List.filter_eq_self.2 hadjusts]
  have hsame : Same (s₀.afterAll steps).reset (s₀.afterAll adjustments) := by
    rw [← hfresh]
    exact hsettings.same_reset (hsteps.wellFormed hwf) (hadjusted.wellFormed hwf)
      (hadjusted.names_eq.trans hsteps.names_eq.symm)
      ((hadjusted.bare_eq hwf).trans (hsteps.bare_eq hwf).symm)
  refine ⟨hsame, fun further => ?_⟩
  obtain ⟨hanswers, hafter⟩ := hsame.afterAll further
  have hreached : s₀.Leads ((s₀.afterAll steps).reset.afterAll further) :=
    hsteps.trans ((Relation.ReflTransGen.single .reset).trans (leads_afterAll _ further))
  exact ⟨hanswers, hafter.view_eq (hreached.wellFormed hwf)⟩

/-- After a run that is cut short, with the gate still high, a switch turned and the probe of the
gate taken off and put on again behind another one, a reset brings back a fresh session. -/
theorem gatedRing_same_reset :
    (load { passes := 0 } gatedRingText).2 = .ok gatedRing ∧
      SameSettings
        (gatedRing.afterAll
          [.run 5, .toggle "C", .setSwitch ⟨3⟩ false, .toggle "G", .toggle "G", .execute])
        (gatedRing.afterAll [.setSwitch ⟨3⟩ false, .toggle "C"]) ∧
      ((gatedRing.afterAll [.setSwitch ⟨3⟩ false, .toggle "C"]).afterAll [.run 4]).view =
        ((gatedRing.afterAll
          [.run 5, .toggle "C", .setSwitch ⟨3⟩ false, .toggle "G", .toggle "G",
            .execute]).reset.afterAll [.run 4]).view := by
  have hsettings : SameSettings
      (gatedRing.afterAll
        [.run 5, .toggle "C", .setSwitch ⟨3⟩ false, .toggle "G", .toggle "G", .execute])
      (gatedRing.afterAll [.setSwitch ⟨3⟩ false, .toggle "C"]) := by
    refine sameSettings_of_same_reset ?_
    rw [reset_afterAll, reset_afterAll]
    exact ⟨by decide +kernel, by decide +kernel, by decide +kernel, by decide +kernel⟩
  obtain ⟨-, hfurther⟩ := (same_reset_of_sameSettings load_gatedRing
    [.run 5, .toggle "C", .setSwitch ⟨3⟩ false, .toggle "G", .toggle "G", .execute]).2
      [.setSwitch ⟨3⟩ false, .toggle "C"] (by decide) hsettings
  exact ⟨load_gatedRing, hsettings, (hfurther [.run 4]).2⟩

end Session

end Breadboard
