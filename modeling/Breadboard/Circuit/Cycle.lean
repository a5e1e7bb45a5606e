import Breadboard.Circuit.Basic
import Breadboard.Notice

/-!
# One cycle of a circuit

A cycle has three parts.

* Every clock counts the cycle.
* The circuit settles: the devices are refreshed one after the other, in the order of
  declaration, until a whole pass changes nothing. Feedback is allowed, so no order of
  evaluation is worked out in advance.
* Rounds of latching follow until one stores nothing new. In a round all flip-flops sample
  their inputs at once, and the circuit settles again. A flip-flop that is clocked by
  another one sees that edge in the next round of the same cycle, so ripple counters work.

Passes and rounds are bounded by `Circuit.settleBound`. A circuit that needs more is left as
it is at that point, and the cycle says what did not come to rest.

* `pass_of_settleWithin`: a circuit that has settled is not changed by a further pass.
* `settleWithin_mono`: more passes do not change a circuit that settles anyway.
* `cycle_preserves`: what the parts of a cycle preserve is preserved by a cycle.
* `sameShape_cycle`: a cycle adds, removes and reorders no device.
-/
namespace Breadboard

/-- What did not come to rest within a cycle. -/
inductive Unrest where
  /-- Outputs still changed in the last pass allowed. -/
  | outputs (passes : Nat)
  /-- Flip-flops still stored new bits in the last round allowed. -/
  | flipFlops (rounds : Nat)
  deriving DecidableEq, Repr

namespace Unrest

def limit : Unrest → Nat
  | outputs passes => passes
  | flipFlops rounds => rounds

def message (u : Unrest) : String := s!"Network did not settle after {u.limit} passes"

def notice : Unrest → Notice
  | outputs passes => .warn s!"Network did not settle after {passes} passes"
  | flipFlops rounds => .warn s!"Flip-flops did not settle after {rounds} rounds"

end Unrest

namespace Circuit

/-- The passes and the rounds that a cycle may take. Without feedback a circuit declared back
to front needs one pass for each device and one more that changes nothing. -/
def settleBound (c : Circuit) : Nat := max c.passLimit (c.size + 1)

def tick (c : Circuit) : Circuit := c.mapLogic Logic.tick

/-- Brings one device up to date with what its inputs read now. -/
def refresh (c : Circuit) (id : NameId) : Circuit := c.modify id (·.refresh c.read)

/-- Brings the devices up to date one after the other; each sees the changes before it. -/
def pass (c : Circuit) : Circuit := c.ids.foldl refresh c

/-- Makes passes until one changes nothing, at most the given number. Says whether one did. -/
def settleWithin : Nat → Circuit → Bool × Circuit
  | 0, c => (false, c)
  | n + 1, c =>
    let next := c.pass
    if next = c then (true, next) else settleWithin n next

def settle (c : Circuit) : Bool × Circuit := settleWithin c.settleBound c

/-- All flip-flops sample their inputs at once. -/
def latch (c : Circuit) : Circuit := c.mapLogic (·.latch c.read)

/-- The bits that the flip-flops store, in order. -/
def stored (c : Circuit) : List Bool := c.devices.filterMap (·.logic.stored?)

/-- Latches and settles until a round stores nothing new, at most the given number of times. -/
def latchWithin : Nat → Circuit → Except Unrest Unit × Circuit
  | 0, c => (.error (.flipFlops c.settleBound), c)
  | n + 1, c =>
    let next := c.latch
    if next.stored = c.stored then (.ok (), next)
    else
      match next.settle with
      | (true, settled) => latchWithin n settled
      | (false, unsettled) => (.error (.outputs unsettled.settleBound), unsettled)

/-- One cycle: what did not come to rest, if anything, and the circuit afterwards. -/
def cycle (c : Circuit) : Except Unrest Unit × Circuit :=
  match c.tick.settle with
  | (true, settled) => latchWithin settled.settleBound settled
  | (false, unsettled) => (.error (.outputs unsettled.settleBound), unsettled)

/-! ## Passes and rounds -/

/-- There are more passes and rounds than devices. -/
theorem lt_settleBound (c : Circuit) : c.size < c.settleBound := Nat.le_max_right _ _

theorem exists_settleBound_eq (c : Circuit) : ∃ n, c.settleBound = n + 1 :=
  Nat.exists_eq_add_one.2 (Nat.zero_lt_of_lt c.lt_settleBound)

/-! ## Settling -/

/-- A circuit that has settled is not changed by a further pass. -/
theorem pass_of_settleWithin {n : Nat} {c c' : Circuit} (h : settleWithin n c = (true, c')) :
    c'.pass = c' := by
  induction n generalizing c with
  | zero => simp [settleWithin] at h
  | succ n ih =>
    simp only [settleWithin] at h
    split at h
    · rename_i hp
      obtain rfl : c.pass = c' := by simpa using h
      rw [hp, hp]
    · exact ih h

theorem settleWithin_mono {n m : Nat} {c c' : Circuit} (h : settleWithin n c = (true, c'))
    (hnm : n ≤ m) : settleWithin m c = (true, c') := by
  induction n generalizing c m with
  | zero => simp [settleWithin] at h
  | succ n ih =>
    obtain ⟨m, rfl⟩ : ∃ k, m = k + 1 := ⟨m - 1, by omega⟩
    simp only [settleWithin] at h ⊢
    split at h
    · rename_i hp
      rw [if_pos hp]
      exact h
    · rename_i hp
      rw [if_neg hp]
      exact ih h (by omega)

/-! ## What a cycle is made of -/

section
variable {P : Circuit → Prop} {c : Circuit} (hrefresh : ∀ c id, P c → P (refresh c id))
include hrefresh

theorem pass_preserves (h : P c) : P c.pass := by
  have hfold (ids : List NameId) (c : Circuit) (h : P c) : P (ids.foldl refresh c) := by
    induction ids generalizing c with
    | nil => exact h
    | cons id ids ih => exact ih _ (hrefresh c id h)
  exact hfold c.ids c h

theorem settleWithin_preserves (n : Nat) (h : P c) : P (settleWithin n c).2 := by
  induction n generalizing c with
  | zero => exact h
  | succ n ih =>
    simp only [settleWithin]
    split
    · exact pass_preserves hrefresh h
    · exact ih (pass_preserves hrefresh h)

variable (hlatch : ∀ c, P c → P c.latch)
include hlatch

/-- What a first sample establishes is preserved by the rounds. -/
theorem latchWithin_succ_preserves (n : Nat) (h : P c.latch) : P (latchWithin (n + 1) c).2 := by
  induction n generalizing c with
  | zero =>
    have hsettle : P c.latch.settle.2 := settleWithin_preserves hrefresh _ h
    simp only [latchWithin]
    split
    · exact h
    · split <;> simp_all
  | succ n ih =>
    have hsettle : P c.latch.settle.2 := settleWithin_preserves hrefresh _ h
    rw [latchWithin]
    split
    · exact h
    · split
      · rename_i hs
        rw [hs] at hsettle
        exact ih (hlatch _ hsettle)
      · rename_i hs
        rwa [hs] at hsettle

theorem latchWithin_preserves (n : Nat) (h : P c) : P (latchWithin n c).2 := by
  cases n with
  | zero => exact h
  | succ n => exact latchWithin_succ_preserves hrefresh hlatch n (hlatch c h)

/-- What the ticks of the clocks establish, and refreshing a device and latching preserve, holds after
a cycle, whether it comes to rest or not. -/
theorem cycle_preserves_of_tick (h : P c.tick) : P c.cycle.2 := by
  have hsettle : P c.tick.settle.2 := settleWithin_preserves hrefresh _ h
  unfold cycle
  split
  · rename_i hs
    rw [hs] at hsettle
    exact latchWithin_preserves hrefresh hlatch _ hsettle
  · rename_i hs
    rwa [hs] at hsettle

/-- What refreshing a device, latching and ticking preserve is preserved by a cycle, whether it
comes to rest or not. -/
theorem cycle_preserves (htick : ∀ c, P c → P c.tick) (h : P c) : P c.cycle.2 :=
  cycle_preserves_of_tick hrefresh hlatch (htick c h)

end

/-! ## What a cycle leaves alone -/

/-- Two circuits with the same devices, apart from what is in them, and the same limit. -/
def SameShape (c c' : Circuit) : Prop := c'.ids = c.ids ∧ c'.passLimit = c.passLimit

namespace SameShape

theorem rfl {c : Circuit} : SameShape c c := ⟨Eq.refl _, Eq.refl _⟩

theorem trans {a b c : Circuit} (h : SameShape a b) (h' : SameShape b c) : SameShape a c :=
  ⟨h'.1.trans h.1, h'.2.trans h.2⟩

theorem size_eq {c c' : Circuit} (h : SameShape c c') : c'.size = c.size := by
  rw [size_eq_length_ids, size_eq_length_ids, h.1]

theorem settleBound_eq {c c' : Circuit} (h : SameShape c c') : c'.settleBound = c.settleBound := by
  rw [settleBound, settleBound, h.2, h.size_eq]

end SameShape

theorem sameShape_mapLogic (c : Circuit) (f : Logic → Logic) : SameShape c (c.mapLogic f) :=
  ⟨ids_mapLogic c f, Eq.refl _⟩

theorem sameShape_refresh (c : Circuit) (id : NameId) : SameShape c (c.refresh id) :=
  ⟨ids_modify c id _, Eq.refl _⟩

theorem sameShape_pass (c : Circuit) : SameShape c c.pass :=
  pass_preserves (P := SameShape c) (fun c' id h => h.trans (sameShape_refresh c' id)) .rfl

theorem sameShape_settleWithin (n : Nat) (c : Circuit) : SameShape c (settleWithin n c).2 :=
  settleWithin_preserves (P := SameShape c) (fun c' id h => h.trans (sameShape_refresh c' id)) n
    .rfl

/-- A cycle adds, removes and reorders no device. -/
theorem sameShape_cycle (c : Circuit) : SameShape c c.cycle.2 :=
  cycle_preserves (P := SameShape c) (fun c' id h => h.trans (sameShape_refresh c' id))
    (fun c' h => h.trans (sameShape_mapLogic c' _))
    (fun c' h => h.trans (sameShape_mapLogic c' _)) .rfl

end Circuit

end Breadboard
