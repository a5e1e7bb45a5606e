import Breadboard.Proofs.Board.Operations

/-!
# Cycles, resets and revisions

Three kinds of operations change the circuit of a board: cycles, resets, and those that revise it,
which add devices, connect inputs and set switches. `Operation.cyclesSinceReset` counts the cycles
of a run since the last reset, whether they came to rest or not.

* `Operation.apply_cases`: what an operation does to the circuit, and to the count.
* `Board.foldl_apply_preserves`: what may be said of a circuit and the count is kept by a run if
  each kind of change keeps it.
-/
namespace Breadboard

/-! ## Revisions -/

namespace Circuit

/-- A change of a circuit that is neither a cycle nor a reset. -/
inductive Revision (c : Circuit) : Circuit → Prop where
  | device {id : NameId} {kind : DeviceKind} {parameter : Option UInt32} {c' : Circuit} :
      c.addDevice id kind parameter = .ok c' → Revision c c'
  | wire {source : Terminal} {target : NameId} {pin : InputPin} {c' : Circuit} :
      c.connect source target pin = .ok c' → Revision c c'
  | switch {id : NameId} {closed : Bool} {c' : Circuit} :
      c.setSwitch id closed = .ok c' → Revision c c'

/-- Some revisions make the second circuit of the first one. -/
def Revises : Circuit → Circuit → Prop := Relation.ReflTransGen Revision

theorem Revises.preserves {P : Circuit → Prop} {c c' : Circuit} (h : c.Revises c')
    (hP : ∀ {c c'}, Revision c c' → P c → P c') (hc : P c) : P c' := by
  induction h with
  | refl => exact hc
  | tail _ hrevision ih => exact hP hrevision ih

end Circuit

namespace Definition

theorem revises_readOnto (b : Board) (limit : Nat) (source : String) :
    b.circuit.Revises (readOnto b limit source).board.circuit := by
  refine (leads_draftOnto b limit source).preserves (P := fun d => b.circuit.Revises d.circuit)
    (fun hchange h => ?_) .refl
  cases hchange with
  | report | probe => exact h
  | device hadd => exact h.tail (.device hadd)
  | wire hconnect => exact h.tail (.wire hconnect)

end Definition

/-! ## The count of cycles -/

namespace Operation

/-- The cycles since the last reset, once the operation has been counted. -/
def countCycle (n : Nat) : Operation → Nat
  | cycle => n + 1
  | reset => 0
  | _ => n

/-- How many cycles there are in a run since the last reset, or since its start if there is none. -/
def cyclesSinceReset (ops : List Operation) : Nat := ops.foldl countCycle 0

/-- An operation is a cycle or a reset, or it revises the circuit and does not count. -/
theorem apply_cases (b : Board) (op : Operation) :
    op = .cycle ∨ op = .reset ∨
      b.circuit.Revises (op.apply b).circuit ∧ ∀ n, op.countCycle n = n := by
  cases op with
  | cycle => exact .inl rfl
  | reset => exact .inr (.inl rfl)
  | addDevice id kind parameter =>
    refine .inr (.inr ⟨?_, fun _ => rfl⟩)
    simp only [apply]
    split
    · rename_i hadd
      exact .single (.device hadd)
    · exact .refl
  | connect source target pin =>
    refine .inr (.inr ⟨?_, fun _ => rfl⟩)
    simp only [apply]
    split
    · rename_i hconnect
      exact .single (.wire hconnect)
    · exact .refl
  | setSwitch id closed =>
    refine .inr (.inr ⟨?_, fun _ => rfl⟩)
    simp only [apply]
    split
    · rename_i hset
      exact .single (.switch hset)
    · exact .refl
  | addProbe t =>
    refine .inr (.inr ⟨?_, fun _ => rfl⟩)
    simp only [apply]
    split <;> exact .refl
  | toggle name blanks =>
    refine .inr (.inr ⟨?_, fun _ => rfl⟩)
    simp only [apply]
    split
    · rename_i htoggle
      obtain ⟨t, -, -, ⟨-, -, rfl⟩ | ⟨-, -, probes, -, rfl⟩⟩ := Board.toggle_cases htoggle <;>
        exact .refl
    · exact .refl
  | removeProbe | record | clearProbes | intern => exact .inr (.inr ⟨.refl, fun _ => rfl⟩)
  | read limit source =>
    exact .inr (.inr ⟨Definition.revises_readOnto b limit source, fun _ => rfl⟩)

end Operation

namespace Board

/-- What may be said of a circuit and the count is kept by a run, if it is kept by revisions,
carried on by cycles, whether they come to rest or not, and started afresh by resets. -/
theorem foldl_apply_preserves {P : Nat → Circuit → Prop}
    (hrevision : ∀ {n c c'}, Circuit.Revision c c' → P n c → P n c')
    (hcycle : ∀ {n c}, P n c → P (n + 1) c.cycle.2) (hreset : ∀ {n c}, P n c → P 0 c.reset)
    (ops : List Operation) {n : Nat} {b : Board} (h : P n b.circuit) :
    P (ops.foldl Operation.countCycle n) (ops.foldl Operation.apply b).circuit := by
  induction ops generalizing n b with
  | nil => exact h
  | cons op ops ih =>
    refine ih ?_
    obtain rfl | rfl | ⟨hrevises, hcount⟩ := op.apply_cases b
    · exact hcycle h
    · exact hreset h
    · rw [hcount]
      exact hrevises.preserves hrevision h

end Board

end Breadboard
