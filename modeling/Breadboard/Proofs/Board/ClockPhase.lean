import Breadboard.Proofs.Board.Revisions
import Mathlib.Algebra.Ring.Parity

/-!
# The phase of a clock

A clock counts every cycle once, whether the cycle comes to rest or not, and nothing but a reset
touches its phase besides. So its phase is a matter of the number of cycles alone.

* `Clock.tick_atPhase`: the count goes up to the half-period, and starts again as the output turns.
* `find?_clock_cycle`, `find?_clock_revision`: what a cycle and other changes do to a clock.
* `clock_ofOperations`: where a clock is after any number of cycles.
-/
namespace Breadboard

namespace Clock

/-- The clock of the given half-period, as it is so many cycles after the power has come on. -/
def atPhase (halfPeriod : UInt32) (n : Nat) : Clock where
  halfPeriod := halfPeriod
  counter := .ofNat (n % halfPeriod.toNat)
  output := decide (Odd (n / halfPeriod.toNat))

variable {halfPeriod : UInt32} {n : Nat}

theorem toNat_counter_atPhase (n : Nat) (h : 0 < halfPeriod) :
    (atPhase halfPeriod n).counter.toNat = n % halfPeriod.toNat := by
  have hlt : n % halfPeriod.toNat < halfPeriod.toNat := Nat.mod_lt _ (UInt32.lt_iff_toNat_lt.1 h)
  exact UInt32.toNat_ofNat_of_lt' (Nat.lt_trans hlt halfPeriod.toNat_lt)

/-- The number that a clock counts to fits into 32 bits. -/
theorem toNat_counter_add_one (n : Nat) (h : 0 < halfPeriod) :
    ((atPhase halfPeriod n).counter + 1).toNat = (atPhase halfPeriod n).counter.toNat + 1 := by
  have hlt : n % halfPeriod.toNat < halfPeriod.toNat := Nat.mod_lt _ (UInt32.lt_iff_toNat_lt.1 h)
  rw [UInt32.toNat_add, toNat_counter_atPhase n h]
  exact Nat.mod_eq_of_lt (Nat.lt_of_le_of_lt (Nat.succ_le_of_lt hlt) halfPeriod.toNat_lt)

/-- The count goes up to the half-period, and starts again as the output turns. -/
theorem tick_atPhase (n : Nat) (h : 0 < halfPeriod) :
    (atPhase halfPeriod n).tick = atPhase halfPeriod (n + 1) := by
  have hpos : 0 < halfPeriod.toNat := UInt32.lt_iff_toNat_lt.1 h
  have hlt := Nat.mod_lt n hpos
  have hsplit := Nat.div_add_mod n halfPeriod.toNat
  have hcount : (atPhase halfPeriod n).counter + 1 ≥ (atPhase halfPeriod n).halfPeriod ↔
      n % halfPeriod.toNat + 1 = halfPeriod.toNat := by
    rw [ge_iff_le, UInt32.le_iff_toNat_le, toNat_counter_add_one n h, toNat_counter_atPhase n h]
    show halfPeriod.toNat ≤ _ ↔ _
    omega
  by_cases hfull : n % halfPeriod.toNat + 1 = halfPeriod.toNat
  · obtain ⟨hdiv, hmod⟩ : (n + 1) / halfPeriod.toNat = n / halfPeriod.toNat + 1 ∧
        (n + 1) % halfPeriod.toNat = 0 := by
      refine (Nat.div_mod_unique hpos).2 ⟨?_, hpos⟩
      rw [Nat.mul_add]
      omega
    rw [tick, if_pos (hcount.2 hfull)]
    simp [atPhase, hdiv, hmod, Nat.odd_add_one, -Nat.not_odd_iff_even]
  · obtain ⟨hdiv, hmod⟩ : (n + 1) / halfPeriod.toNat = n / halfPeriod.toNat ∧
        (n + 1) % halfPeriod.toNat = n % halfPeriod.toNat + 1 := by
      refine (Nat.div_mod_unique hpos).2 ⟨?_, ?_⟩ <;> omega
    rw [tick, if_neg (mt hcount.1 hfull)]
    simp [atPhase, hdiv, hmod, UInt32.ofNat_add]

end Clock

namespace Circuit

variable {c c' : Circuit} {id : NameId} {k : Clock}

/-! ## What touches a clock -/

/-- A change of parts that leaves a clock as it is leaves it in its place. -/
theorem find?_clock_modify {f : Logic → Logic} (hf : f (.clock k) = .clock k)
    (h : c.find? id = some ⟨id, .clock k⟩) (x : NameId) :
    (c.modify x f).find? id = some ⟨id, .clock k⟩ := by
  rw [find?_modify, h, Option.map_some, Device.mapLogic, hf, ite_self]

/-- A clock counts a cycle once, whether the cycle comes to rest or not. -/
theorem find?_clock_cycle (h : c.find? id = some ⟨id, .clock k⟩) :
    c.cycle.2.find? id = some ⟨id, .clock k.tick⟩ := by
  refine cycle_preserves_of_tick (P := fun e => e.find? id = some ⟨id, .clock k.tick⟩)
    (fun e x he => find?_clock_modify rfl he x) (fun e he => ?_) ?_
  · rw [latch, find?_mapLogic, he]
    rfl
  · rw [tick, find?_mapLogic, h]
    rfl

theorem find?_clock_reset (h : c.find? id = some ⟨id, .clock k⟩) :
    c.reset.find? id = some ⟨id, .clock { k with counter := 0, output := false }⟩ := by
  rw [reset, find?_mapLogic, h]
  rfl

/-- Revising the circuit does not touch a clock. -/
theorem find?_clock_revision (hrevision : Revision c c')
    (h : c.find? id = some ⟨id, .clock k⟩) : c'.find? id = some ⟨id, .clock k⟩ := by
  cases hrevision with
  | device hadd => exact find?_of_addDevice hadd h
  | @wire source target pin _ hconnect =>
    rw [eq_modify_of_connect hconnect]
    exact find?_clock_modify (by cases pin <;> rfl) h target
  | @switch other closed _ hset =>
    obtain ⟨⟨d, old, hd, hlogic⟩, rfl⟩ := setSwitch_eq_ok_iff.1 hset
    have hne : id ≠ other := by
      rintro rfl
      rw [h] at hd
      obtain rfl := Option.some.inj hd
      cases hlogic
    rw [find?_modify, if_neg hne, h]

end Circuit

namespace Board

/-- A clock that is added to a board is in the first phase. -/
theorem find?_addDevice_clock {b : Board} {id : NameId} {halfPeriod : UInt32}
    (hnew : id ∉ b.circuit.ids) (hpos : 0 < halfPeriod) :
    (Operation.apply b (.addDevice id .clock (some halfPeriod))).circuit.find? id =
      some ⟨id, .clock (.atPhase halfPeriod 0)⟩ := by
  have hadd : b.circuit.addDevice id .clock (some halfPeriod) = .ok _ :=
    Circuit.addDevice_eq_ok_iff.2 ⟨hnew, .clock { halfPeriod }, by
      simp [Logic.ofKind, (UInt32.pos_iff_ne_zero.1 hpos)], rfl⟩
  have hnone : b.circuit.devices.find? (·.id == id) = none := Circuit.find?_eq_none_iff.2 hnew
  simp [Operation.apply, hadd, Circuit.find?, List.find?_append, hnone, Clock.atPhase]

/-- **The phase of a clock.** Take a clock that is added to a board with a half-period of at least
one, which are all that are accepted. Whatever is done to the board before and after that, let `n`
be the number of cycles since it was added, or since the last reset after that, whether they came to
rest or not. Then the clock has counted up to `n` modulo its half-period, its output is high exactly
if the half-period has passed an odd number of times, and the next number fits into 32 bits. -/
theorem clock_ofOperations (passLimit : Nat) (before after : List Operation) (id : NameId)
    (halfPeriod : UInt32) (hnew : id ∉ (ofOperations passLimit before).circuit.ids)
    (hpos : 0 < halfPeriod) :
    let b := ofOperations passLimit
      (before ++ .addDevice id .clock (some halfPeriod) :: after)
    let n := Operation.cyclesSinceReset after
    ∃ k : Clock, b.circuit.find? id = some ⟨id, .clock k⟩ ∧ k.halfPeriod = halfPeriod ∧
      k.counter.toNat = n % halfPeriod.toNat ∧
      (k.output = true ↔ Odd (n / halfPeriod.toNat)) ∧
      (k.counter + 1).toNat = k.counter.toNat + 1 := by
  intro b n
  have hphase : b.circuit.find? id = some ⟨id, .clock (.atPhase halfPeriod n)⟩ := by
    show (ofOperations passLimit (before ++ _)).circuit.find? id = _
    rw [ofOperations, List.foldl_append, List.foldl_cons]
    refine foldl_apply_preserves
      (P := fun n c => c.find? id = some ⟨id, .clock (.atPhase halfPeriod n)⟩)
      Circuit.find?_clock_revision (fun {n c} h => ?_) (fun {n c} h => ?_) after
      (find?_addDevice_clock hnew hpos)
    · rw [← Clock.tick_atPhase n hpos]
      exact Circuit.find?_clock_cycle h
    · rw [Circuit.find?_clock_reset h]
      simp [Clock.atPhase]
  exact ⟨_, hphase, rfl, Clock.toNat_counter_atPhase n hpos, decide_eq_true_iff,
    Clock.toNat_counter_add_one n hpos⟩

/-- Three cycles after a reset a clock of half-period two has turned once and counted once more,
although the board never comes to rest. -/
theorem clock_ofOperations_oscillating :
    let ring : List Operation :=
      [.addDevice ⟨0⟩ (.gate .nand) (some 1), .connect ⟨⟨0⟩, .out⟩ ⟨0⟩ (.gate 1)]
    let after : List Operation :=
      [.cycle, .cycle, .reset, .cycle, .cycle, .setSwitch ⟨1⟩ true, .cycle]
    let b := ofOperations 0 (ring ++ .addDevice ⟨1⟩ .clock (some 2) :: after)
    b.circuit.cycle.1 = .error (.outputs 3) ∧ Operation.cyclesSinceReset after = 3 ∧
      ∃ k : Clock, b.circuit.find? ⟨1⟩ = some ⟨⟨1⟩, .clock k⟩ ∧ k.counter.toNat = 1 ∧
        k.output = true := by
  intro ring after b
  obtain ⟨k, hk, -, hcounter, houtput, -⟩ :=
    clock_ofOperations 0 ring after ⟨1⟩ 2 (by decide) (by decide)
  exact ⟨by decide +kernel, rfl, k, hk, hcounter.trans (by decide), houtput.2 (by decide)⟩

end Board

end Breadboard
