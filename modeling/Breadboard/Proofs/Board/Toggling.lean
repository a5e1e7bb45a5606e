import Breadboard.Proofs.Board.Operations

/-!
# Flipping probes

Toggling a signal puts a probe on its output or takes the one there off, and touches nothing else.
On the probes that is `Probes.flip`, of which three laws are all that is needed: it changes the
status of one output, a second time undoes the first as far as the status goes, and at two different
outputs the order does not matter.

What is lost by taking a probe off is its trace. When it is put on again it starts with blanks;
`Probes.blank` are the probes to which that has happened on one output.

* `contains_flip`, `flip_flip_of_unprobed`, `flip_flip_of_probed`, `flip_comm`: the laws.
* `Board.toggle_flips`: a signal that is known is toggled by a flip at its output.
-/
namespace Breadboard

/-! ## Probes -/

namespace Probes

variable {p : Probes} {c : Circuit} {t t' : Terminal} {n : Nat}

/-- Takes the probe off an output, or puts one on that starts with blanks. -/
def flip (p : Probes) (t : Terminal) (blanks : Nat) : Probes :=
  if p.contains t then p.remove t
  else { probes := p.probes ++ [⟨t, Array.replicate blanks .blank⟩] }

/-- The probes with nothing but blanks on the trace of one output. -/
def blank (p : Probes) (t : Terminal) (blanks : Nat) : Probes :=
  { probes := p.probes.map fun probe =>
      if probe.terminal = t then ⟨t, Array.replicate blanks .blank⟩ else probe }

theorem contains_remove (p : Probes) (t other : Terminal) :
    (p.remove t).contains other = if other = t then false else p.contains other := by
  rw [contains_eq_isSome_trace?, contains_eq_isSome_trace?, trace?_remove]
  split <;> rfl

theorem trace?_append_of_ne {trace : Trace} {other : Terminal} (h : other ≠ t) :
    trace? { probes := p.probes ++ [⟨t, trace⟩] } other = p.trace? other := by
  have hne : (t == other) = false := by simpa using fun he : t = other => h he.symm
  simp [trace?, List.find?_append, hne]

/-- A probe that has been put on last is taken off again without a trace. -/
theorem remove_append_self {trace : Trace} (h : p.contains t = false) :
    remove { probes := p.probes ++ [⟨t, trace⟩] } t = p := by
  have hkeep : p.probes.filter (·.terminal != t) = p.probes := by
    refine List.filter_eq_self.2 fun probe hp => ?_
    rw [bne_iff_ne]
    intro he
    rw [contains_iff.2 (List.mem_map.2 ⟨probe, hp, he⟩)] at h
    cases h
  simp [remove, hkeep]

theorem remove_append_of_ne {trace : Trace} (h : t' ≠ t) :
    remove { probes := p.probes ++ [⟨t', trace⟩] } t =
      { probes := (p.remove t).probes ++ [⟨t', trace⟩] } := by
  simp [remove, h]

/-- A probe that is taken off and put on again is the last one, and its trace is blank. -/
theorem perm_blank (hn : (p.probes.map (·.terminal)).Nodup) (ht : p.contains t = true) :
    ((p.remove t).probes ++ [(⟨t, Array.replicate n .blank⟩ : Probe)]).Perm
      (p.blank t n).probes := by
  obtain ⟨probes⟩ := p
  rw [contains_iff] at ht
  simp only [remove, blank] at hn ht ⊢
  induction probes with
  | nil => cases ht
  | cons probe rest ih =>
    obtain ⟨hnot, hn⟩ := List.nodup_cons.1 hn
    by_cases hprobe : probe.terminal = t
    · -- The probe is the first one, and there is no other on its output.
      have hother : ∀ q ∈ rest, q.terminal ≠ t := by
        intro q hq he
        exact hnot (List.mem_map.2 ⟨q, hq, he.trans hprobe.symm⟩)
      have hfilter : rest.filter (·.terminal != t) = rest :=
        List.filter_eq_self.2 fun q hq => by simpa using hother q hq
      have hmap : (rest.map fun q => if q.terminal = t then
          (⟨t, Array.replicate n .blank⟩ : Probe) else q) = rest := by
        conv_rhs => rw [← List.map_id rest]
        exact List.map_congr_left fun q hq => if_neg (hother q hq)
      simp only [List.filter_cons, hprobe, bne_self_eq_false, Bool.false_eq_true, if_false, hfilter,
        List.map_cons, if_true, hmap]
      exact List.perm_append_singleton _ _
    · have hrest : t ∈ rest.map (·.terminal) := by
        rcases List.mem_cons.1 ht with he | hmem
        · exact absurd he.symm hprobe
        · exact hmem
      simp only [List.filter_cons, bne_iff_ne, ne_eq, hprobe, not_false_eq_true, if_true,
        List.map_cons, if_false, List.cons_append]
      exact (ih hn hrest).cons probe

/-! ### Flips -/

theorem flip_of_probed (h : p.contains t = true) (n : Nat) : p.flip t n = p.remove t := by
  rw [flip, if_pos h]

theorem flip_of_unprobed (h : p.contains t = false) (n : Nat) :
    p.flip t n = { probes := p.probes ++ [⟨t, Array.replicate n .blank⟩] } := by
  rw [flip, if_neg (by simp [h])]

theorem trace?_flip_of_ne {other : Terminal} (h : other ≠ t) (n : Nat) :
    (p.flip t n).trace? other = p.trace? other := by
  cases ht : p.contains t with
  | true => rw [flip_of_probed ht, trace?_remove, if_neg h]
  | false => rw [flip_of_unprobed ht, trace?_append_of_ne h]

theorem contains_flip (p : Probes) (t : Terminal) (n : Nat) (other : Terminal) :
    (p.flip t n).contains other = if other = t then !p.contains t else p.contains other := by
  by_cases ho : other = t
  · subst ho
    rw [if_pos rfl]
    cases ht : p.contains other with
    | true => rw [flip_of_probed ht, contains_remove, if_pos rfl, Bool.not_true]
    | false => simp [flip_of_unprobed ht, contains]
  · rw [if_neg ho, contains_eq_isSome_trace?, trace?_flip_of_ne ho, contains_eq_isSome_trace?]

/-- Flipped twice, the probes sit where they sat. -/
theorem contains_flip_flip (p : Probes) (t : Terminal) (n m : Nat) (other : Terminal) :
    ((p.flip t n).flip t m).contains other = p.contains other := by
  rw [contains_flip, contains_flip, if_pos rfl, Bool.not_not, contains_flip]
  split
  · rename_i he
    rw [he]
  · rfl

/-- A probe that is put on and taken off leaves nothing behind. -/
theorem flip_flip_of_unprobed (h : p.contains t = false) (n m : Nat) :
    (p.flip t n).flip t m = p := by
  have hon : (p.flip t n).contains t = true := by rw [contains_flip, if_pos rfl, h, Bool.not_false]
  rw [flip_of_probed hon, flip_of_unprobed h, remove_append_self h]

/-- A probe that is taken off and put on loses its trace. -/
theorem flip_flip_of_probed (hn : (p.probes.map (·.terminal)).Nodup) (h : p.contains t = true)
    (n m : Nat) : ((p.flip t n).flip t m).probes.Perm (p.blank t m).probes := by
  have hoff : (p.flip t n).contains t = false := by rw [contains_flip, if_pos rfl, h, Bool.not_true]
  rw [flip_of_unprobed hoff, flip_of_probed h]
  exact perm_blank hn h

theorem flip_comm (h : t ≠ t') (p : Probes) (n : Nat) :
    ((p.flip t n).flip t' n).probes.Perm ((p.flip t' n).flip t n).probes := by
  have hat : (p.flip t n).contains t' = p.contains t' := by rw [contains_flip, if_neg h.symm]
  have hat' : (p.flip t' n).contains t = p.contains t := by rw [contains_flip, if_neg h]
  cases ht : p.contains t <;> cases ht' : p.contains t' <;> rw [ht] at hat' <;> rw [ht'] at hat
  · rw [flip_of_unprobed hat, flip_of_unprobed hat', flip_of_unprobed ht, flip_of_unprobed ht']
    simp only [List.append_assoc]
    exact (List.perm_append_comm).append_left _
  · rw [flip_of_probed hat, flip_of_unprobed hat', flip_of_unprobed ht, flip_of_probed ht',
      remove_append_of_ne h]
  · rw [flip_of_unprobed hat, flip_of_probed hat', flip_of_probed ht, flip_of_unprobed ht',
      remove_append_of_ne h.symm]
  · rw [flip_of_probed hat, flip_of_probed hat', flip_of_probed ht, flip_of_probed ht']
    simp only [remove, List.filter_filter, Bool.and_comm]
    exact .refl _

end Probes

/-! ## Boards -/

namespace Board

/-- A signal that is known is toggled by a flip at its output. -/
theorem toggle_flips {b : Board} {name : String} {t : Terminal} (ht : b.terminal? name = some t)
    (hout : b.circuit.hasTerminal t = true) (blanks : Nat) :
    b.toggle name blanks =
      .ok (!b.probes.contains t, { b with probes := b.probes.flip t blanks }) := by
  cases hprobe : b.probes.contains t with
  | true => rw [toggle_of_probed ht hout hprobe, Probes.flip_of_probed hprobe]; rfl
  | false => rw [toggle_of_unprobed ht hout hprobe, Probes.flip_of_unprobed hprobe]; rfl

end Board

end Breadboard
