import Breadboard.Proofs.Circuit.Settling

/-!
# Limits on passes

The limit of a circuit bounds the passes of each settling, and the rounds as well. It plays no part
in what a pass or a round does, so a cycle that comes to rest does so under every higher limit too,
after the same passes and the same rounds.

* `settleWithin_withLimit`: passes do not depend on the limit.
* `latchWithin_withLimit_of_ok`: rounds that come to an end do so under every higher limit.
* `cycle_withLimit_of_ok`: a cycle that comes to rest is the same under every higher limit.
-/
namespace Breadboard.Circuit

variable {c c' : Circuit} {p : Nat}

def withLimit (c : Circuit) (p : Nat) : Circuit := { c with passLimit := p }

theorem withLimit_inj (h : c'.passLimit = c.passLimit) :
    c'.withLimit p = c.withLimit p ↔ c' = c := by
  cases c
  cases c'
  simp_all [withLimit]

@[simp]
theorem find?_withLimit (c : Circuit) (p : Nat) (id : NameId) :
    (c.withLimit p).find? id = c.find? id := rfl

theorem setSwitch_withLimit (c : Circuit) (p : Nat) (id : NameId) (closed : Bool) :
    (c.withLimit p).setSwitch id closed = (c.setSwitch id closed).map (·.withLimit p) := by
  simp only [setSwitch, find?_withLimit]
  cases c.find? id with
  | none => rfl
  | some d =>
    rcases d with ⟨_, l⟩
    cases l <;> rfl

/-! ## Passes -/

theorem pass_withLimit (c : Circuit) (p : Nat) : (c.withLimit p).pass = c.pass.withLimit p := by
  have hfold (ids : List NameId) (c : Circuit) :
      ids.foldl refresh (c.withLimit p) = (ids.foldl refresh c).withLimit p := by
    induction ids generalizing c with
    | nil => rfl
    | cons id ids ih => exact ih (c.refresh id)
  exact hfold c.ids c

theorem settleWithin_withLimit (n : Nat) (c : Circuit) (p : Nat) :
    settleWithin n (c.withLimit p) =
      ((settleWithin n c).1, (settleWithin n c).2.withLimit p) := by
  induction n generalizing c with
  | zero => rfl
  | succ n ih =>
    simp only [settleWithin, pass_withLimit, withLimit_inj (sameShape_pass c).2, ih]
    split <;> rfl

theorem settleBound_le_withLimit (hp : c.passLimit ≤ p) :
    c.settleBound ≤ (c.withLimit p).settleBound :=
  max_le_max hp (Nat.le_refl _)

theorem settle_withLimit (hp : c.passLimit ≤ p) (h : c.settle = (true, c')) :
    (c.withLimit p).settle = (true, c'.withLimit p) := by
  rw [settle, settleWithin_withLimit,
    settleWithin_mono (show settleWithin c.settleBound c = _ from h) (settleBound_le_withLimit hp)]

/-! ## Rounds and cycles -/

/-- Rounds that come to an end do so under every higher limit, with as many rounds or more. -/
theorem latchWithin_withLimit_of_ok {n m : Nat} (hp : c.passLimit ≤ p) (hnm : n ≤ m)
    (h : latchWithin n c = (.ok (), c')) :
    latchWithin m (c.withLimit p) = (.ok (), c'.withLimit p) := by
  -- The rounds are counted down together: there are as many left under the higher limit, or more.
  induction n generalizing c m with
  | zero => cases h
  | succ n ih =>
    obtain ⟨m, rfl⟩ : ∃ k, m = k + 1 := ⟨m - 1, by omega⟩
    have hlatch : (c.withLimit p).latch = c.latch.withLimit p := rfl
    have hstored (c : Circuit) : (c.withLimit p).stored = c.stored := rfl
    simp only [latchWithin, hlatch, hstored] at h ⊢
    split at h
    · rename_i hquiet
      cases h
      rw [if_pos hquiet]
    · rename_i hnew
      rw [if_neg hnew]
      split at h
      · rename_i c₁ hsettle
        have hlimit : c₁.passLimit = c.passLimit := (sameShape_settle hsettle).2
        rw [settle_withLimit (show c.latch.passLimit ≤ p from hp) hsettle]
        exact ih (by rwa [hlimit]) (by omega) h
      · cases h

theorem cycle_withLimit_of_ok (hp : c.passLimit ≤ p) (h : c.cycle = (.ok (), c')) :
    (c.withLimit p).cycle = (.ok (), c'.withLimit p) := by
  have htick : (c.withLimit p).tick = c.tick.withLimit p := rfl
  rw [cycle] at h ⊢
  split at h
  · rename_i c₁ hsettle
    have hlimit : c₁.passLimit = c.passLimit := (sameShape_settle hsettle).2
    rw [htick, settle_withLimit (show c.tick.passLimit ≤ p from hp) hsettle]
    exact latchWithin_withLimit_of_ok (by rwa [hlimit])
      (settleBound_le_withLimit (by rwa [hlimit])) h
  · cases h

end Breadboard.Circuit
