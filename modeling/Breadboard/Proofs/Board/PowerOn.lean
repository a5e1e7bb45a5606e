import Breadboard.Proofs.Board.Reset
import Breadboard.Proofs.Board.Revisions
import Breadboard.Proofs.Circuit.PositiveFeedback

/-!
# The first cycle

Until the first cycle, and from a reset to the next cycle, a board is in the state in which the
power comes on, whatever else is done to it: all gates are low.

* `reset_circuit_ofOperations`: without a cycle since the last reset, the circuit is as a reset
  leaves it.
* `cycle_isLeast_of_positive`: the first cycle of a circuit with positive feedback only comes to
  rest at the least levels that meet the equations of its gates.
-/
namespace Breadboard.Board

/-- Without a cycle since the last reset, the circuit is as a reset leaves it. -/
theorem reset_circuit_ofOperations (passLimit : Nat) {ops : List Operation}
    (h : Operation.cyclesSinceReset ops = 0) :
    (ofOperations passLimit ops).circuit.reset = (ofOperations passLimit ops).circuit := by
  refine foldl_apply_preserves (P := fun n c => n = 0 → c.reset = c)
    (fun {n c c'} hrevision h hn => ?_)
    (fun _ hn => absurd hn (Nat.succ_ne_zero _)) (fun _ _ => Circuit.reset_reset _) ops
    (fun _ => rfl) h
  have hc := h hn
  cases hrevision with
  | device hadd => exact Circuit.reset_addDevice hadd hc
  | wire hconnect => exact Circuit.reset_connect hconnect hc
  | @switch id closed _ hset =>
    have hreset := Circuit.reset_setSwitch c id closed
    rw [hc, hset] at hreset
    exact (Except.ok.inj hreset).symm

/-- **Positive feedback.** If a board has made no cycle since it was empty or reset, and its circuit
consists of switches, clocks, `AND` and `OR` gates, connected and declared in any way, then the next
cycle comes to rest, whatever the limit of passes. All it changes besides the clocks is the outputs
of the gates: these are at the least solution of the gate equations for the positions of the
switches and the outputs of the clocks. -/
theorem cycle_isLeast_of_positive (passLimit : Nat) (ops : List Operation)
    (hpower : Operation.cyclesSinceReset ops = 0)
    (hpositive : (ofOperations passLimit ops).circuit.Every Logic.Positive) :
    ∃ v, IsLeast (Function.fixedPoints (ofOperations passLimit ops).circuit.tick.required) v ∧
      (ofOperations passLimit ops).circuit.cycle =
        (.ok (), (ofOperations passLimit ops).circuit.tick.withOutputs v) := by
  have hn := ((wellFormed_empty passLimit).foldl_apply ops).circuit.nodup
  refine Circuit.cycle_of_outputs_low hn hpositive fun d hd => ?_
  have hreset : d.logic.reset = d.logic :=
    Circuit.reset_eq_self_iff.1 (reset_circuit_ofOperations passLimit hpower) d hd
  cases hlogic : d.logic with
  | gate g => rwa [hlogic] at hreset
  | switch | clock | dtype => rfl

/-- A clock, a gate that it sets high for good, and a gate that is declared before its driver and
feeds itself. -/
def feedbackLoops : List Operation :=
  [.addDevice ⟨0⟩ .clock (some 1), .addDevice ⟨1⟩ (.gate .and) none,
    .addDevice ⟨2⟩ (.gate .or) none, .connect ⟨⟨2⟩, .out⟩ ⟨1⟩ (.gate 1),
    .connect ⟨⟨1⟩, .out⟩ ⟨1⟩ (.gate 2), .connect ⟨⟨0⟩, .out⟩ ⟨2⟩ (.gate 1),
    .connect ⟨⟨2⟩, .out⟩ ⟨2⟩ (.gate 2)]

/-- The clock sets the one gate high. The other one stays low, although it might as well be high. -/
theorem feedbackLoops_cycle :
    let ops := feedbackLoops ++ [.cycle, .reset]
    let c := (ofOperations 0 ops).circuit
    Operation.cyclesSinceReset ops = 0 ∧ c.Every Logic.Positive ∧
      (fun id => decide (id = ⟨1⟩ ∨ id = ⟨2⟩)) ∈ Function.fixedPoints c.tick.required ∧
      ∃ v, IsLeast (Function.fixedPoints c.tick.required) v ∧
        c.cycle = (.ok (), c.tick.withOutputs v) ∧ v ⟨1⟩ = false ∧ v ⟨2⟩ = true := by
  intro ops c
  have hpower : Operation.cyclesSinceReset ops = 0 := rfl
  have hpositive : c.Every Logic.Positive := by
    show ∀ d ∈ c.devices, d.logic.Positive
    decide +kernel
  have hsolution : (fun id => decide (id = ⟨1⟩ ∨ id = ⟨2⟩)) ∈
      Function.fixedPoints c.tick.required := by
    funext id
    rcases id with ⟨_ | _ | _ | n⟩ <;> rfl
  obtain ⟨v, hleast, hcycle⟩ := cycle_isLeast_of_positive 0 ops hpower hpositive
  have houtput (id : NameId) :
      (c.tick.withOutputs v).output? ⟨id, .out⟩ = c.cycle.2.output? ⟨id, .out⟩ := by rw [hcycle]
  refine ⟨hpower, hpositive, hsolution, v, hleast, hcycle, ?_, ?_⟩
  · have hlow : c.cycle.2.output? ⟨⟨1⟩, .out⟩ = some false := by decide +kernel
    exact Option.some.inj ((houtput ⟨1⟩).trans hlow)
  · have hhigh : c.cycle.2.output? ⟨⟨2⟩, .out⟩ = some true := by decide +kernel
    exact Option.some.inj ((houtput ⟨2⟩).trans hhigh)

end Breadboard.Board
