/-!
# Ranges of code points

A character class is kept as closed ranges of code points in ascending order, which is how
its standard lists it. Membership walks the ranges and stops at the first one that starts
above the code point, so ASCII text never reads more than a few entries.
-/
namespace Breadboard.Text

/-- Closed ranges `(lo, hi)` of code points, in ascending order. -/
abbrev Ranges := List (Nat × Nat)

/-- Whether a code point lies in one of the ranges. -/
def Ranges.covers : Ranges → Nat → Bool
  | [], _ => false
  | (lo, hi) :: rest, n => if n < lo then false else n ≤ hi || covers rest n

/-- What lies before the first range lies in none. -/
theorem Ranges.covers_of_lt {lo hi n : Nat} {rest : Ranges} (h : n < lo) :
    Ranges.covers ((lo, hi) :: rest) n = false := by
  simp [covers, h]

theorem Ranges.exists_of_covers {rs : Ranges} {n : Nat} (h : rs.covers n = true) :
    ∃ r ∈ rs, r.1 ≤ n ∧ n ≤ r.2 := by
  induction rs with
  | nil => simp [covers] at h
  | cons r rs ih =>
    obtain ⟨lo, hi⟩ := r
    simp only [covers] at h
    split at h
    · simp at h
    · rcases Bool.or_eq_true _ _ ▸ h with h' | h'
      · exact ⟨(lo, hi), by simp, by simpa using Nat.le_of_not_lt ‹_›, by simpa using h'⟩
      · obtain ⟨r, hr, hn⟩ := ih h'
        exact ⟨r, by simp [hr], hn⟩

end Breadboard.Text
