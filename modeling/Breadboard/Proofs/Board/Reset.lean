import Breadboard.Proofs.Board.Operations
import Breadboard.Proofs.Circuit.Reset

/-!
# Resetting boards

A reset wipes what simulation and recording leave on a board. Names, connections, the positions of
the switches and the places of the probes are kept.

* `Probes.clear_record`, `Probes.clear_add`: recordings and blanks are wiped, probes are not.
* `reset_toggle`: a signal may as well be toggled after a reset as before it.
* `Definition.reset_readOnto`: a text that is read leaves a board as a reset leaves it.
-/
namespace Breadboard

namespace Probes

theorem clear_clear (p : Probes) : p.clear.clear = p.clear := by
  simp [clear, Function.comp_def]

theorem clear_record (p : Probes) (c : Circuit) : (p.record c).clear = p.clear := by
  simp [clear, record, Function.comp_def]

theorem clear_remove (p : Probes) (t : Terminal) : (p.remove t).clear = p.clear.remove t := by
  simp [clear, remove, List.filter_map, Function.comp_def]

theorem contains_clear (p : Probes) (t : Terminal) : p.clear.contains t = p.contains t := by
  simp [contains, clear, List.any_map, Function.comp_def]

/-- The blanks of a new probe are wiped. -/
theorem clear_add (p : Probes) (c : Circuit) (t : Terminal) (blanks : Nat) :
    p.clear.add c.reset t 0 = (p.add c t blanks).map clear := by
  unfold add
  rw [show c.reset.find? t.device = _ from Circuit.find?_mapLogic c _ t.device]
  cases c.find? t.device with
  | none => rfl
  | some d =>
    have hout : (d.mapLogic Logic.reset).hasOutput t.pin = d.hasOutput t.pin := by
      rw [Device.hasOutput, Device.mapLogic, ← Logic.outputPins_bare, Logic.bare_reset,
        Logic.outputPins_bare, Device.hasOutput]
    simp only [Option.map_some, hout, contains_clear]
    by_cases hnone : d.hasOutput t.pin = false
    · simp [hnone, Except.map]
    · rw [Bool.not_eq_false] at hnone
      by_cases hp : p.contains t = true
      · simp [hnone, hp, Except.map]
      · simp [hnone, hp, Except.map, clear]

end Probes

namespace Board

def reset (b : Board) : Board :=
  { b with circuit := b.circuit.reset, probes := b.probes.clear }

theorem reset_reset (b : Board) : b.reset.reset = b.reset := by
  simp only [reset, Circuit.reset_reset, Probes.clear_clear]

/-- A signal may as well be toggled after a reset as before it. -/
theorem reset_toggle (b : Board) (name : String) (blanks : Nat) :
    b.reset.toggle name 0 =
      (b.toggle name blanks).map fun (probed, b') => (probed, b'.reset) := by
  have hout (t : Terminal) : b.reset.circuit.hasTerminal t = b.circuit.hasTerminal t :=
    Circuit.hasTerminal_of_bare_eq (Circuit.bare_reset b.circuit) t
  rcases b.unknown_or_exists_output name with hnone | ⟨t, ht, hsome⟩
  · rw [toggle_of_unknown hnone, toggle_of_unknown fun t ht => (hout t).trans (hnone t ht)]
    rfl
  have ht' : b.reset.terminal? name = some t := ht
  cases hprobe : b.probes.contains t with
  | true =>
    have hprobe' : b.reset.probes.contains t = true := (Probes.contains_clear _ t).trans hprobe
    rw [toggle_of_probed ht hsome hprobe, toggle_of_probed ht' ((hout t).trans hsome) hprobe']
    simp [Except.map, reset, Probes.clear_remove]
  | false =>
    have hprobe' : b.reset.probes.contains t = false := (Probes.contains_clear _ t).trans hprobe
    rw [toggle_of_unprobed ht hsome hprobe, toggle_of_unprobed ht' ((hout t).trans hsome) hprobe']
    simp [Except.map, reset, Probes.clear]

end Board

namespace Definition

variable {b : Board}

/-- A text that is read leaves a board as a reset leaves it, whether it is accepted or not. -/
theorem reset_readOnto (h : b.reset = b) (limit : Nat) (source : String) :
    (readOnto b limit source).board.reset = (readOnto b limit source).board := by
  have hdraft := (leads_draftOnto b limit source).preserves
    (P := fun d => d.circuit.reset = d.circuit ∧ d.probes.clear = d.probes)
    (fun {d d'} hchange ⟨hc, hp⟩ => ?_)
    ⟨congrArg Board.circuit h, congrArg Board.probes h⟩
  · show Board.mk _ _ _ = Board.mk _ _ _
    rw [Board.mk.injEq]
    exact ⟨rfl, hdraft⟩
  cases hchange with
  | report => exact ⟨hc, hp⟩
  | device hadd => exact ⟨Circuit.reset_addDevice hadd hc, hp⟩
  | wire hconnect => exact ⟨Circuit.reset_connect hconnect hc, hp⟩
  | @probe t probes hadd =>
    refine ⟨hc, ?_⟩
    have hclear := Probes.clear_add d.probes d.circuit t 0
    rw [hc, hp, hadd] at hclear
    exact (Except.ok.inj hclear).symm

end Definition

end Breadboard
