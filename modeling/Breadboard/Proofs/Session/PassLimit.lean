import Breadboard.Proofs.Circuit.PassLimit
import Breadboard.Proofs.Session.Reset

/-!
# Sessions under a higher limit

Two sessions that differ in the limit on passes go through the same steps. As long as every cycle
comes to rest under the lower limit, they cannot be told apart.

* `load_of_passes`: the limit plays no part in loading.
* `take_withLimit`: a step without unrest has the same answer and the same outcome under a higher
  limit.
* `same_results_of_limit_le`: the main result, for circuits in every state and for every sequence of
  steps.
-/
namespace Breadboard

/-! ## Boards -/

namespace Board

def withLimit (b : Board) (p : Nat) : Board := { b with circuit := b.circuit.withLimit p }

theorem toggle_withLimit (b : Board) (p : Nat) (name : String) (blanks : Nat) :
    (b.withLimit p).toggle name blanks =
      (b.toggle name blanks).map fun (probed, b') => (probed, b'.withLimit p) := by
  unfold toggle
  rw [show (b.withLimit p).terminal? name = b.terminal? name from rfl]
  cases b.terminal? name with
  | none => rfl
  | some t =>
    have hout : (b.withLimit p).circuit.hasTerminal t = b.circuit.hasTerminal t := rfl
    have hprobes : (b.withLimit p).probes = b.probes := rfl
    have hadd : b.probes.add (b.withLimit p).circuit t blanks =
        b.probes.add b.circuit t blanks := rfl
    simp only [hout, hprobes, hadd]
    cases b.circuit.hasTerminal t <;> cases b.probes.contains t <;>
      cases b.probes.add b.circuit t blanks <;> rfl

end Board

namespace Session

variable {s s' : Session} {p p' : Nat}

def withLimit (s : Session) (p : Nat) : Session := { s with board := s.board.withLimit p }

theorem view_withLimit (s : Session) (p : Nat) : (s.withLimit p).view = s.view := rfl

/-! ## Loading -/

theorem load_of_passes {lines : Nat} {source : String}
    (hload : (load ⟨lines, p⟩ source).2 = .ok s) (p' : Nat) :
    load ⟨lines, p'⟩ source = ((load ⟨lines, p⟩ source).1, .ok (s.withLimit p')) := by
  obtain ⟨t, ht, hwf, rfl⟩ := exists_tree_of_load hload
  simp only [load, Definition.readOnto_of_derives _ ht hwf]
  rfl

/-! ## Steps -/

/-- No cycle of the step was cut short. -/
def Answer.Rests : Answer → Prop
  | .ran result _ | .executed result => result = .ok ()
  | .done | .set _ | .toggled _ => True

instance : DecidablePred Answer.Rests
  | .ran result _ | .executed result => inferInstanceAs (Decidable (result = .ok ()))
  | .done | .set _ | .toggled _ => isTrue trivial

theorem execute_withLimit (hp : s.board.circuit.passLimit ≤ p) (h : s.execute = (.ok (), s')) :
    (s.withLimit p).execute = (.ok (), s'.withLimit p) := by
  have hresult : s.board.circuit.cycle.1 = .ok () := congrArg Prod.fst h
  obtain rfl : s.execute.2 = s' := congrArg Prod.snd h
  have hcycle := Circuit.cycle_withLimit_of_ok hp (Prod.ext hresult rfl)
  simp only [execute, withLimit, Board.withLimit, hcycle]

theorem passLimit_execute (s : Session) :
    s.execute.2.board.circuit.passLimit = s.board.circuit.passLimit :=
  (Circuit.sameShape_cycle s.board.circuit).2

theorem run_withLimit {n : Nat} (hp : s.board.circuit.passLimit ≤ p)
    (h : s.run n = (.ok (), s')) : (s.withLimit p).run n = (.ok (), s'.withLimit p) := by
  induction n generalizing s with
  | zero =>
    cases h
    rfl
  | succ n ih =>
    have hlimit := passLimit_execute s
    rcases he : s.execute with ⟨unrest | ⟨⟩, e⟩ <;> rw [he] at hlimit
    · rw [run_succ_of_error he] at h
      cases h
    · rw [run_succ_of_ok he] at h
      rw [run_succ_of_ok (execute_withLimit hp he)]
      have hp' : e.record.board.circuit.passLimit ≤ p := Nat.le_trans (Nat.le_of_eq hlimit) hp
      exact ih hp' h

theorem setSwitch_withLimit (s : Session) (p : Nat) (id : NameId) (closed : Bool) :
    (s.withLimit p).setSwitch id closed = (s.setSwitch id closed).map (·.withLimit p) := by
  have hcircuit := Circuit.setSwitch_withLimit s.board.circuit p id closed
  simp only [setSwitch, withLimit, Board.withLimit, hcircuit]
  cases s.board.circuit.setSwitch id closed <;> rfl

theorem toggle_withLimit (s : Session) (p : Nat) (name : String) :
    (s.withLimit p).toggle name =
      (s.toggle name).map fun (probed, s') => (probed, s'.withLimit p) := by
  simp only [toggle, withLimit, Board.toggle_withLimit]
  rcases s.board.toggle name s.cycles with _ | ⟨probed, board⟩ <;> rfl

/-- A step without unrest has the same answer and the same outcome under a higher limit. -/
theorem take_withLimit {step : Step} (hp : s.board.circuit.passLimit ≤ p)
    (h : (s.take step).1.Rests) :
    (s.withLimit p).take step = ((s.take step).1, (s.after step).withLimit p) := by
  cases step with
  | run cycles =>
    have hrun : s.run cycles = (.ok (), (s.run cycles).2) := Prod.ext h rfl
    simp only [after, take, run_withLimit hp hrun, show (s.run cycles).1 = .ok () from h]
    rfl
  | execute =>
    have hexecute : s.execute = (.ok (), s.execute.2) := Prod.ext h rfl
    simp only [after, take, execute_withLimit hp hexecute, show s.execute.1 = .ok () from h]
  | record => rfl
  | setSwitch id closed =>
    simp only [after, take, setSwitch_withLimit]
    cases s.setSwitch id closed <;> rfl
  | toggle name =>
    simp only [after, take, toggle_withLimit]
    rcases s.toggle name with _ | ⟨probed, s'⟩ <;> rfl
  | reset => rfl

theorem afterAll_withLimit {steps : List Step} (hs : s.board.WellFormed)
    (hp : s.board.circuit.passLimit ≤ p) (h : ∀ answer ∈ s.answers steps, answer.Rests) :
    (s.withLimit p).answers steps = s.answers steps ∧
      (s.withLimit p).afterAll steps = (s.afterAll steps).withLimit p := by
  induction steps generalizing s with
  | nil => exact ⟨rfl, rfl⟩
  | cons step steps ih =>
    obtain ⟨hstep, hsteps⟩ := List.forall_mem_cons.1 h
    have htake := take_withLimit hp hstep
    have hleads := leads_after s step
    have hlimit : (s.after step).board.circuit.passLimit ≤ p := by
      rwa [(Circuit.sameShape_of_bare_eq (hleads.bare_eq hs)).2]
    obtain ⟨hanswers, hafter⟩ := ih (hleads.wellFormed hs) hlimit hsteps
    have hnext : (s.withLimit p).after step = (s.after step).withLimit p :=
      congrArg Prod.snd htake
    refine ⟨?_, ?_⟩
    · rw [answers, answers, htake, hnext, hanswers]
    · show ((s.withLimit p).after step).afterAll steps = ((s.after step).afterAll steps).withLimit p
      rw [hnext, hafter]

/-! ## The main result -/

/-- **Higher limits.** A cycle that comes to rest does so under every higher limit, and leaves the
same circuit; so one that does not come to rest under the higher limit does not under the lower one.
A text that is loaded under the one is loaded under the other, and as long as no cycle is cut short
under the lower limit, every sequence of steps gives the same answers and leaves the same session,
and all that is shown of it is the same. -/
theorem same_results_of_limit_le (hp : p ≤ p') :
    (∀ c c' : Circuit, (c.withLimit p).cycle = (.ok (), c') →
        (c.withLimit p').cycle = (.ok (), c'.withLimit p')) ∧
      (∀ (c : Circuit) (unrest : Unrest), (c.withLimit p').cycle.1 = .error unrest →
        ∃ unrest', (c.withLimit p).cycle.1 = .error unrest') ∧
      ∀ (lines : Nat) (source : String) (s : Session), (load ⟨lines, p⟩ source).2 = .ok s →
        load ⟨lines, p'⟩ source = ((load ⟨lines, p⟩ source).1, .ok (s.withLimit p')) ∧
        ∀ steps : List Step, (∀ answer ∈ s.answers steps, answer.Rests) →
          (s.withLimit p').answers steps = s.answers steps ∧
          (s.withLimit p').afterAll steps = (s.afterAll steps).withLimit p' ∧
          ((s.withLimit p').afterAll steps).view = (s.afterAll steps).view := by
  have hcycle (c c' : Circuit) (h : (c.withLimit p).cycle = (.ok (), c')) :
      (c.withLimit p').cycle = (.ok (), c'.withLimit p') :=
    Circuit.cycle_withLimit_of_ok (c := c.withLimit p) hp h
  refine ⟨hcycle, fun c unrest h => ?_, fun lines source s hload => ?_⟩
  · cases hresult : (c.withLimit p).cycle.1 with
    | error unrest' => exact ⟨unrest', rfl⟩
    | ok =>
      rw [hcycle c _ (Prod.ext hresult rfl)] at h
      cases h
  · have hlimit : s.board.circuit.passLimit ≤ p' := by
      obtain ⟨t, -, -, rfl⟩ := exists_tree_of_load hload
      exact hp
    refine ⟨load_of_passes hload p', fun steps hsteps => ?_⟩
    obtain ⟨hanswers, hafter⟩ := afterAll_withLimit (wellFormed_of_load hload) hlimit hsteps
    exact ⟨hanswers, hafter, by rw [hafter, view_withLimit]⟩

/-- Runs that are kept short enough for the gate to come to rest tell the same under a limit of
twenty passes. A cycle with the clock high comes to rest under neither limit. -/
theorem gatedRing_same_results :
    0 ≤ 20 ∧ (load ⟨500, 0⟩ gatedRingText).2 = .ok gatedRing ∧
      (load ⟨500, 20⟩ gatedRingText).2 = .ok (gatedRing.withLimit 20) ∧
      (∀ answer ∈ gatedRing.answers [.run 1, .toggle "C", .setSwitch ⟨3⟩ false, .run 1],
        answer.Rests) ∧
      (gatedRing.withLimit 20).answers [.run 1, .toggle "C", .setSwitch ⟨3⟩ false, .run 1] =
        gatedRing.answers [.run 1, .toggle "C", .setSwitch ⟨3⟩ false, .run 1] ∧
      ((gatedRing.withLimit 20).afterAll [.run 1, .toggle "C", .setSwitch ⟨3⟩ false, .run 1]).view =
        (gatedRing.afterAll [.run 1, .toggle "C", .setSwitch ⟨3⟩ false, .run 1]).view ∧
      ((gatedRing.after (.run 1)).board.circuit.withLimit 20).cycle.1 = .error (.outputs 20) ∧
      ∃ unrest, ((gatedRing.after (.run 1)).board.circuit.withLimit 0).cycle.1 = .error unrest := by
  obtain ⟨-, hunrest, hload⟩ := same_results_of_limit_le (show 0 ≤ 20 by decide)
  obtain ⟨hloaded, hsteps⟩ := hload 500 gatedRingText gatedRing load_gatedRing
  have hrests : ∀ answer ∈ gatedRing.answers [.run 1, .toggle "C", .setSwitch ⟨3⟩ false, .run 1],
      answer.Rests := by
    decide +kernel
  have hrings : ((gatedRing.after (.run 1)).board.circuit.withLimit 20).cycle.1 =
      .error (.outputs 20) := by
    decide +kernel
  obtain ⟨hanswers, -, hview⟩ := hsteps _ hrests
  have hhigher : (load ⟨500, 20⟩ gatedRingText).2 = .ok (gatedRing.withLimit 20) := by
    rw [hloaded]
  exact ⟨by decide, load_gatedRing, hhigher, hrests, hanswers, hview, hrings,
    hunrest _ _ hrings⟩

end Session

end Breadboard
