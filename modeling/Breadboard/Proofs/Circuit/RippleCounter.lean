import Breadboard.Proofs.Circuit.Latching
import Mathlib.Algebra.BigOperators.Group.Finset.Basic
import Mathlib.Data.Nat.ModEq
import Mathlib.Logic.Function.Basic

/-!
# Ripple counters

In a ripple counter every flip-flop inverts itself, and all but the first are clocked by the
inverted bit of the one before. When the clock rises, the carry runs through the stages: in each
round of latching one stage sees its clock rise, inverts its bit, and passes the edge on if that
bit was high. All of that takes place within one cycle, since there are more rounds than stages.

* `latch`, `stored_latch_eq_iff`: what a round does to a counter.
* `latchWithin_of_carry`: an edge at stage `j` adds `2 ^ j` to the number, and then the counter is
  at rest.
* `rippleCounter_counts`: the number after any number of cycles, for every width.
-/
namespace Breadboard.Circuit

/-! ## Numbers in binary -/

/-- The number with the given binary digits, the lowest first. -/
def number (q : Nat → Bool) (k : Nat) : Nat := ∑ i ∈ Finset.range k, (q i).toNat * 2 ^ i

theorem number_succ (q : Nat → Bool) (k : Nat) :
    number q (k + 1) = number q k + (q k).toNat * 2 ^ k :=
  Finset.sum_range_succ _ k

theorem number_lt (q : Nat → Bool) (k : Nat) : number q k < 2 ^ k := by
  induction k with
  | zero => simp [number]
  | succ k ih =>
    have hdigit : (q k).toNat * 2 ^ k ≤ 1 * 2 ^ k := Nat.mul_le_mul_right _ (Bool.toNat_le _)
    rw [number_succ, Nat.pow_succ]
    omega

theorem number_true (k : Nat) : number (fun _ => true) k + 1 = 2 ^ k := by
  induction k with
  | zero => rfl
  | succ k ih =>
    rw [number_succ, Nat.pow_succ, ← ih, Bool.toNat_true]
    omega

/-- The number with one of its digits inverted. -/
theorem number_update {q : Nat → Bool} {j k : Nat} (hj : j < k) :
    number (Function.update q j (!q j)) k + (q j).toNat * 2 ^ j =
      number q k + (!q j).toNat * 2 ^ j := by
  have hrest : ∀ i ∈ (Finset.range k).erase j,
      (Function.update q j (!q j) i).toNat * 2 ^ i = (q i).toNat * 2 ^ i := fun i hi => by
    rw [Function.update_of_ne (Finset.ne_of_mem_erase hi)]
  have hmem : j ∈ Finset.range k := Finset.mem_range.2 hj
  rw [number, number, ← Finset.sum_erase_add _ _ hmem, ← Finset.sum_erase_add _ _ hmem,
    Finset.sum_congr rfl hrest, Function.update_self]
  omega

/-! ## Counters -/

/-- What clocks a stage: the clock clocks the first one, and the inverted bit of a stage the one
behind it. -/
def stageClock (ck : NameId) (ff : Nat → NameId) : Nat → Terminal
  | 0 => ⟨ck, .out⟩
  | i + 1 => ⟨ff i, .qbar⟩

/-- The level of that clock, for given bits. -/
def stageLevel (level : Bool) (q : Nat → Bool) : Nat → Bool
  | 0 => level
  | i + 1 => !q i

/-- The clock of a ripple counter. -/
def rippleClock (ck : NameId) (level : Bool) : Device :=
  ⟨ck, .clock { halfPeriod := 1, output := level }⟩

/-- A stage of a ripple counter: a flip-flop that inverts itself. -/
def rippleStage (ck : NameId) (ff : Nat → NameId) (q last : Nat → Bool) (i : Nat) : Device :=
  ⟨ff i, .dtype
    { clk := some (stageClock ck ff i)
      data := some ⟨ff i, .qbar⟩
      stored := q i
      lastClk := last i }⟩

/-- The circuit is a ripple counter with `k` stages, declared in any order. The clock is at a given
level, the stages hold given bits and have sampled given levels. -/
structure IsRippleCounter (k : Nat) (ck : NameId) (ff : Nat → NameId) (level : Bool)
    (q last : Nat → Bool) (c : Circuit) : Prop where
  nodup : c.ids.Nodup
  devices : c.devices.Perm
    (rippleClock ck level :: (List.range k).map (rippleStage ck ff q last))

def afterCycles (c : Circuit) : Nat → Circuit
  | 0 => c
  | n + 1 => (c.afterCycles n).cycle.2

namespace IsRippleCounter

variable {k : Nat} {ck : NameId} {ff : Nat → NameId} {level : Bool} {q last : Nat → Bool}
  {c : Circuit}

theorem mem_devices_iff (h : IsRippleCounter k ck ff level q last c) {d : Device} :
    d ∈ c.devices ↔ d = rippleClock ck level ∨ ∃ i < k, d = rippleStage ck ff q last i := by
  rw [h.devices.mem_iff, List.mem_cons, List.mem_map]
  simp only [List.mem_range, eq_comm (a := d)]

theorem size_eq (h : IsRippleCounter k ck ff level q last c) : c.size = k + 1 := by
  rw [size, h.devices.length_eq]
  simp

theorem find?_clock (h : IsRippleCounter k ck ff level q last c) :
    c.find? ck = some (rippleClock ck level) :=
  (find?_eq_some_iff h.nodup).2 ⟨h.mem_devices_iff.2 (.inl rfl), rfl⟩

theorem find?_stage (h : IsRippleCounter k ck ff level q last c) {i : Nat} (hi : i < k) :
    c.find? (ff i) = some (rippleStage ck ff q last i) :=
  (find?_eq_some_iff h.nodup).2 ⟨h.mem_devices_iff.2 (.inr ⟨i, hi, rfl⟩), rfl⟩

theorem output?_stage (h : IsRippleCounter k ck ff level q last c) {i : Nat} (hi : i < k) :
    c.output? ⟨ff i, .q⟩ = some (q i) := by
  rw [output?, h.find?_stage hi]
  rfl

theorem read_data (h : IsRippleCounter k ck ff level q last c) {i : Nat} (hi : i < k) :
    c.read (some ⟨ff i, .qbar⟩) = !q i := by
  rw [read, Option.bind_some, output?, h.find?_stage hi]
  rfl

theorem read_clk (h : IsRippleCounter k ck ff level q last c) {i : Nat} (hi : i < k) :
    c.read (some (stageClock ck ff i)) = stageLevel level q i := by
  cases i with
  | zero =>
    rw [stageClock, read, Option.bind_some, output?, h.find?_clock]
    rfl
  | succ i => exact h.read_data (Nat.lt_of_succ_lt hi)

/-- Only the bits below the width count. -/
theorem congr {q' last' : Nat → Bool} (h : IsRippleCounter k ck ff level q last c)
    (hq : ∀ i < k, q i = q' i) (hlast : ∀ i < k, last i = last' i) :
    IsRippleCounter k ck ff level q' last' c where
  nodup := h.nodup
  devices := by
    have hstages : (List.range k).map (rippleStage ck ff q last) =
        (List.range k).map (rippleStage ck ff q' last') :=
      List.map_congr_left fun i hi => by
        rw [rippleStage, hq i (List.mem_range.1 hi), hlast i (List.mem_range.1 hi), rippleStage]
    exact hstages ▸ h.devices

theorem mapLogic {f : Logic → Logic} {level' : Bool} {q' last' : Nat → Bool}
    (h : IsRippleCounter k ck ff level q last c)
    (hclock : (rippleClock ck level).mapLogic f = rippleClock ck level')
    (hstage : ∀ i < k,
      (rippleStage ck ff q last i).mapLogic f = rippleStage ck ff q' last' i) :
    IsRippleCounter k ck ff level' q' last' (c.mapLogic f) where
  nodup := by
    rw [ids_mapLogic]
    exact h.nodup
  devices := by
    have hmap := h.devices.map (·.mapLogic f)
    rw [List.map_cons, hclock, List.map_map] at hmap
    have hstages : (List.range k).map ((·.mapLogic f) ∘ rippleStage ck ff q last) =
        (List.range k).map (rippleStage ck ff q' last') :=
      List.map_congr_left fun i hi => hstage i (List.mem_range.1 hi)
    rwa [hstages] at hmap

theorem tick (h : IsRippleCounter k ck ff level q last c) :
    IsRippleCounter k ck ff (!level) q last c.tick :=
  h.mapLogic (by cases level <;> rfl) fun _ _ => rfl

/-- Nothing is forced on the stages, so there is nothing to settle. -/
theorem settled (h : IsRippleCounter k ck ff level q last c) (id : NameId) : c.Settled id := by
  intro d hd
  rcases h.mem_devices_iff.1 (List.mem_of_find?_eq_some hd) with rfl | ⟨i, -, rfl⟩ <;> rfl

theorem settle_eq (h : IsRippleCounter k ck ff level q last c) : c.settle = (true, c) :=
  settle_eq_self h.nodup h.settled

/-! ## Rounds -/

/-- In a round the stages whose clock has risen invert their bits. -/
theorem latch (h : IsRippleCounter k ck ff level q last c) :
    IsRippleCounter k ck ff level
      (fun i => if stageLevel level q i && !last i then !q i else q i) (stageLevel level q)
      c.latch := by
  refine h.mapLogic rfl fun i hi => ?_
  simp only [rippleStage, Device.mapLogic, Logic.latch, FlipFlop.latch, FlipFlop.latches,
    FlipFlop.forced?, h.read_clk hi, h.read_data hi]
  simp [read]

/-- A round stores something new exactly if the clock of a stage has risen. -/
theorem stored_latch_eq_iff (h : IsRippleCounter k ck ff level q last c) :
    c.latch.stored = c.stored ↔ ∀ i < k, (stageLevel level q i && !last i) = false := by
  have hstage : ∀ i < k,
      (((rippleStage ck ff q last i).logic.latch c.read).stored? =
        (rippleStage ck ff q last i).logic.stored? ↔
      (stageLevel level q i && !last i) = false) := by
    intro i hi
    simp only [rippleStage, Logic.latch, Logic.stored?, FlipFlop.latch, FlipFlop.latches,
      FlipFlop.forced?, h.read_clk hi, h.read_data hi]
    cases stageLevel level q i && !last i <;> simp [read]
  rw [Circuit.stored_latch_eq_iff]
  constructor
  · intro hall i hi
    exact (hstage i hi).1 (hall _ (h.mem_devices_iff.2 (.inr ⟨i, hi, rfl⟩)))
  · intro hall d hd
    rcases h.mem_devices_iff.1 hd with rfl | ⟨i, hi, rfl⟩
    · rfl
    · exact (hstage i hi).2 (hall i hi)

/-- Rounds end when no clock has risen. -/
theorem latchWithin_of_quiet {n : Nat} (h : IsRippleCounter k ck ff level q last c)
    (hquiet : ∀ i < k, (stageLevel level q i && !last i) = false) (hn : 0 < n) :
    ∃ c', latchWithin n c = (.ok (), c') ∧
      IsRippleCounter k ck ff level q (stageLevel level q) c' := by
  obtain ⟨n, rfl⟩ := Nat.exists_eq_succ_of_ne_zero (Nat.ne_of_gt hn)
  refine ⟨c.latch, by rw [latchWithin, if_pos (h.stored_latch_eq_iff.2 hquiet)], ?_⟩
  exact h.latch.congr (fun i hi => by simp [hquiet i hi]) fun _ _ => rfl

/-- Rounds go on after one in which a clock has risen. -/
theorem latchWithin_succ {n i : Nat} (h : IsRippleCounter k ck ff level q last c) (hi : i < k)
    (hrise : (stageLevel level q i && !last i) = true) :
    latchWithin (n + 1) c = latchWithin n c.latch := by
  have hstored : c.latch.stored ≠ c.stored := by
    intro he
    rw [h.stored_latch_eq_iff.1 he i hi] at hrise
    cases hrise
  simp only [latchWithin, if_neg hstored, h.latch.settle_eq]

/-- **Carry.** Where the clock of stage `j` alone has risen, the rounds add `2 ^ j` to the number
and come to an end: at the first stage whose bit is low, or behind the last one. -/
theorem latchWithin_of_carry {n j : Nat} (h : IsRippleCounter k ck ff level q last c)
    (hj : j ≤ k) (hn : k - j < n)
    (hothers : ∀ i < k, i ≠ j → last i = stageLevel level q i)
    (hrise : j < k → (stageLevel level q j && !last j) = true) :
    ∃ c' q', latchWithin n c = (.ok (), c') ∧
      IsRippleCounter k ck ff level q' (stageLevel level q') c' ∧
      number q' k ≡ number q k + 2 ^ j [MOD 2 ^ k] := by
  -- Each round moves the edge one stage up, and there are rounds enough for the stages left.
  induction n generalizing j q last c with
  | zero => omega
  | succ n ih =>
    obtain rfl | hlt := Nat.eq_or_lt_of_le hj
    -- The edge has left the last stage, and the number has gone round.
    · obtain ⟨c', hrounds, hrest⟩ := h.latchWithin_of_quiet (n := n + 1) (fun i hi => by
        rw [hothers i hi (Nat.ne_of_lt hi), Bool.and_not_self]) n.succ_pos
      exact ⟨c', q, hrounds, hrest, (Nat.add_modEq_right).symm⟩
    rw [h.latchWithin_succ hlt (hrise hlt)]
    -- Only stage `j` has seen an edge, so the round inverts its bit and no other.
    have hlatch : IsRippleCounter k ck ff level (Function.update q j (!q j)) (stageLevel level q)
        c.latch := by
      refine h.latch.congr (fun i hi => ?_) fun _ _ => rfl
      by_cases hij : i = j
      · rw [hij, if_pos (hrise hlt), Function.update_self]
      · simp [hothers i hi hij, Function.update_of_ne hij]
    have hnumber := number_update (q := q) hlt
    have hsame : ∀ i, i ≠ j + 1 →
        stageLevel level (Function.update q j (!q j)) i = stageLevel level q i := by
      intro i hi
      cases i with
      | zero => rfl
      | succ i =>
        have hij : i ≠ j := fun he => hi (congrArg (· + 1) he)
        simp only [stageLevel, Function.update_of_ne hij]
    cases hbit : q j with
    | true =>
      obtain ⟨c', q', hrounds, hrest, hcarry⟩ := ih hlatch hlt (by omega)
        (fun i _ hi => (hsame i hi).symm) fun _ => by simp [stageLevel, hbit]
      have hadd : number (Function.update q j (!q j)) k + 2 ^ (j + 1) = number q k + 2 ^ j := by
        rw [hbit, Bool.toNat_true, Bool.not_true, Bool.toNat_false] at hnumber
        rw [hbit, Bool.not_true, Nat.pow_succ]
        omega
      exact ⟨c', q', hrounds, hrest, hadd ▸ hcarry⟩
    | false =>
      obtain ⟨c', hrounds, hrest⟩ := hlatch.latchWithin_of_quiet (n := n) (fun i _ => by
        by_cases hi : i = j + 1
        · simp [hi, stageLevel, hbit]
        · rw [hsame i hi, Bool.and_not_self]) (by omega)
      have hadd : number (Function.update q j (!q j)) k = number q k + 2 ^ j := by
        simpa [hbit] using hnumber
      exact ⟨c', _, hrounds, hrest, hadd ▸ .refl _⟩

/-! ## Cycles -/

/-- A cycle of a counter is a matter of its rounds, and there are more rounds than stages. -/
theorem cycle_eq (h : IsRippleCounter k ck ff level q last c) :
    ∃ n, k + 1 < n ∧ c.cycle = latchWithin n c.tick := by
  refine ⟨c.tick.settleBound, ?_, by rw [cycle, h.tick.settle_eq]⟩
  rw [← h.tick.size_eq]
  exact c.tick.lt_settleBound

/-- In the first cycle after the power has come on, every stage sees its clock rise. -/
theorem cycle_of_powerOn
    (h : IsRippleCounter k ck ff false (fun _ => false) (fun _ => false) c) (hk : 0 < k) :
    ∃ c', c.cycle = (.ok (), c') ∧
      IsRippleCounter k ck ff true (fun _ => true) (stageLevel true fun _ => true) c' := by
  obtain ⟨n, hn, hcycle⟩ := h.cycle_eq
  obtain ⟨n, rfl⟩ : ∃ m, n = m + 1 := ⟨n - 1, by omega⟩
  have hhigh : ∀ i, stageLevel true (fun _ => false) i = true := by
    intro i
    cases i <;> rfl
  have hlatch : IsRippleCounter k ck ff true (fun _ => true) (fun _ => true) c.tick.latch := by
    have hlatch := h.tick.latch
    simp only [Bool.not_false, hhigh, Bool.and_self, if_true] at hlatch
    rwa [show stageLevel true (fun _ => false) = fun _ => true from funext hhigh] at hlatch
  obtain ⟨c', hrounds, hrest⟩ := hlatch.latchWithin_of_quiet (n := n)
    (fun i _ => by rw [Bool.not_true, Bool.and_false]) (by omega)
  refine ⟨c', ?_, hrest⟩
  rw [hcycle, h.tick.latchWithin_succ hk (by rfl), hrounds]

/-- A cycle in which the clock falls changes no bit. -/
theorem cycle_of_high (h : IsRippleCounter k ck ff true q (stageLevel true q) c) :
    ∃ c', c.cycle = (.ok (), c') ∧ IsRippleCounter k ck ff false q (stageLevel false q) c' := by
  obtain ⟨n, hn, hcycle⟩ := h.cycle_eq
  obtain ⟨c', hrounds, hrest⟩ := h.tick.latchWithin_of_quiet (n := n) (fun i _ => by
    cases i with
    | zero => rfl
    | succ i => exact Bool.and_not_self _) (by omega)
  exact ⟨c', hcycle.trans hrounds, hrest⟩

/-- A cycle in which the clock rises adds one to the number. -/
theorem cycle_of_low (h : IsRippleCounter k ck ff false q (stageLevel false q) c) :
    ∃ c' q', c.cycle = (.ok (), c') ∧ IsRippleCounter k ck ff true q' (stageLevel true q') c' ∧
      number q' k = (number q k + 1) % 2 ^ k := by
  obtain ⟨n, hn, hcycle⟩ := h.cycle_eq
  obtain ⟨c', q', hrounds, hrest, hcarry⟩ := h.tick.latchWithin_of_carry (n := n) (j := 0)
    k.zero_le (by omega) (fun i _ hi => by
      cases i with
      | zero => exact absurd rfl hi
      | succ i => rfl) fun _ => rfl
  refine ⟨c', q', hcycle.trans hrounds, hrest, ?_⟩
  rw [← Nat.mod_eq_of_lt (number_lt q' k)]
  exact hcarry

/-- After `t + 1` cycles a counter is at rest, and shows how often its clock has risen since the
first cycle, in which all bits were set. -/
theorem exists_afterCycles
    (h : IsRippleCounter k ck ff false (fun _ => false) (fun _ => false) c) (hk : 0 < k)
    (t : Nat) :
    (c.afterCycles t).cycle.1 = .ok () ∧
      ∃ q, IsRippleCounter k ck ff (decide (t % 2 = 0)) q (stageLevel (decide (t % 2 = 0)) q)
          (c.afterCycles (t + 1)) ∧
        number q k = (t / 2 + 2 ^ k - 1) % 2 ^ k := by
  have hpos : 0 < 2 ^ k := Nat.two_pow_pos k
  induction t with
  | zero =>
    obtain ⟨c', hcycle, hrest⟩ := h.cycle_of_powerOn hk
    refine ⟨congrArg Prod.fst hcycle, fun _ => true, ?_, ?_⟩
    · rw [afterCycles, afterCycles, hcycle]
      exact hrest
    · have hall := number_true k
      rw [Nat.mod_eq_of_lt (by omega)]
      omega
  | succ t ih =>
    obtain ⟨-, q, hrest, hnumber⟩ := ih
    by_cases heven : t % 2 = 0
    · have hodd : (t + 1) % 2 ≠ 0 := by omega
      rw [decide_eq_true heven] at hrest
      obtain ⟨c', hcycle, hrest'⟩ := hrest.cycle_of_high
      refine ⟨congrArg Prod.fst hcycle, q, ?_, ?_⟩
      · rw [afterCycles, hcycle, decide_eq_false hodd]
        exact hrest'
      · rw [hnumber, show (t + 1) / 2 = t / 2 by omega]
    · have hodd : (t + 1) % 2 = 0 := by omega
      rw [decide_eq_false heven] at hrest
      obtain ⟨c', q', hcycle, hrest', hnumber'⟩ := hrest.cycle_of_low
      refine ⟨congrArg Prod.fst hcycle, q', ?_, ?_⟩
      · rw [afterCycles, hcycle, decide_eq_true hodd]
        exact hrest'
      · rw [hnumber', hnumber, Nat.mod_add_mod]
        congr 1
        omega

end IsRippleCounter

/-- **Ripple counters.** A ripple counter of any width, in any order of declaration and with any
limit, comes to rest in every cycle. After `t` cycles from the power coming on, its bits are those
of the number of rising edges of the clock, less two: the first edge sets all of them. -/
theorem rippleCounter_counts {k t : Nat} {ck : NameId} {ff : Nat → NameId} {c : Circuit}
    (hk : 1 ≤ k) (hc : IsRippleCounter k ck ff false (fun _ => false) (fun _ => false) c)
    (ht : 1 ≤ t) :
    (∀ i < t, (c.afterCycles i).cycle.1 = .ok ()) ∧
      ∃ q, (∀ i < k, (c.afterCycles t).output? ⟨ff i, .q⟩ = some (q i)) ∧
        number q k = ((t + 1) / 2 + 2 ^ k - 2) % 2 ^ k := by
  obtain ⟨t, rfl⟩ : ∃ s, t = s + 1 := ⟨t - 1, by omega⟩
  obtain ⟨-, q, hrest, hnumber⟩ := hc.exists_afterCycles hk t
  refine ⟨fun i _ => (hc.exists_afterCycles hk i).1, q, fun i => hrest.output?_stage, ?_⟩
  rw [hnumber]
  congr 1
  omega

/-- A ripple counter of three stages, declared in disorder and wired back to front. -/
def octalCounter : Circuit :=
  assemble 0
    [.device ⟨3⟩ .dtype none, .device ⟨1⟩ .dtype none, .device ⟨0⟩ .clock (some 1),
      .device ⟨2⟩ .dtype none, .wire ⟨⟨3⟩, .qbar⟩ ⟨3⟩ .data, .wire ⟨⟨2⟩, .qbar⟩ ⟨3⟩ .clk,
      .wire ⟨⟨2⟩, .qbar⟩ ⟨2⟩ .data, .wire ⟨⟨1⟩, .qbar⟩ ⟨2⟩ .clk, .wire ⟨⟨1⟩, .qbar⟩ ⟨1⟩ .data,
      .wire ⟨⟨0⟩, .out⟩ ⟨1⟩ .clk]

/-- In its fifth cycle the clock rises for the third time. The carry has gone through all stages in
the third cycle, and the number has come to one again. -/
theorem octalCounter_counts :
    IsRippleCounter 3 ⟨0⟩ (fun i => ⟨i + 1⟩) false (fun _ => false) (fun _ => false)
        octalCounter ∧
      (∀ i < 5, (octalCounter.afterCycles i).cycle.1 = .ok ()) ∧
      ∃ q, (∀ i < 3, (octalCounter.afterCycles 5).output? ⟨⟨i + 1⟩, .q⟩ = some (q i)) ∧
        number q 3 = 1 := by
  have hcounter : IsRippleCounter 3 ⟨0⟩ (fun i => ⟨i + 1⟩) false (fun _ => false)
      (fun _ => false) octalCounter := ⟨by decide +kernel, by decide +kernel⟩
  exact ⟨hcounter, rippleCounter_counts (by decide) hcounter (by decide)⟩

end Breadboard.Circuit
