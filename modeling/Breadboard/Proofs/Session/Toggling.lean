import Breadboard.Proofs.Board.SignalNames
import Breadboard.Proofs.Board.Toggling
import Breadboard.Proofs.Session.Reset

/-!
# Toggling signals

In a session a signal is toggled by a flip of the probe on its output, as `Session.flip` says. What
comes of two toggles, of the same signal or of different ones, follows from the laws of flips.

A trace that is lost has a blank for each cycle when its probe is put on again; `Session.blank` is
the session in which that has happened to one trace.

* `toggle_flips`: a signal that is known is toggled by a flip at its output.
* `toggle_restores`: the main result, for every sequence of steps.
-/
namespace Breadboard

/-! ## Sessions -/

namespace Session

variable {s s' : Session} {t t' : Terminal} {name other : String} {probed : Bool}

/-- The session with the probe on one output taken off or put on. -/
def flip (s : Session) (t : Terminal) : Session :=
  { s with board := { s.board with probes := s.board.probes.flip t s.cycles } }

/-- The session with nothing but blanks on the trace of one output, one for each cycle. -/
def blank (s : Session) (t : Terminal) : Session :=
  { s with board := { s.board with probes := s.board.probes.blank t s.cycles } }

theorem toggle_flips (ht : s.board.terminal? name = some t)
    (hout : s.board.circuit.hasTerminal t = true) :
    s.toggle name = .ok (!s.board.probes.contains t, s.flip t) := by
  rw [toggle, flip, Board.toggle_flips ht hout]
  rfl

theorem toggle_of_unknown
    (h : ∀ t, s.board.terminal? name = some t → s.board.circuit.hasTerminal t = false) :
    s.toggle name = .error (.unknownSignal name) := by
  rw [toggle, Board.toggle_of_unknown h]
  rfl

/-- What is toggled is an output, under its own name. -/
theorem toggle_eq_flip (h : s.toggle name = .ok (probed, s')) :
    ∃ t, s.board.terminal? name = some t ∧ s.board.circuit.hasTerminal t = true ∧
      probed = !s.board.probes.contains t ∧ s' = s.flip t := by
  rcases s.board.unknown_or_exists_output name with hnone | ⟨t, ht, hout⟩
  · rw [toggle_of_unknown hnone] at h
    cases h
  · rw [toggle_flips ht hout] at h
    cases h
    exact ⟨t, ht, hout, rfl, rfl⟩

/-- A step toggles an output, or it is refused and changes nothing. -/
theorem take_toggle_cases (s : Session) (name : String) :
    (∃ t, s.board.terminal? name = some t ∧ s.board.circuit.hasTerminal t = true ∧
        s.take (.toggle name) = (.toggled (.ok (!s.board.probes.contains t)), s.flip t)) ∨
      (∀ t, s.board.terminal? name = some t → s.board.circuit.hasTerminal t = false) ∧
        s.take (.toggle name) = (.toggled (.error (.unknownSignal name)), s) := by
  rcases s.board.unknown_or_exists_output name with hnone | ⟨t, ht, hout⟩
  · exact .inr ⟨hnone, by simp only [take, toggle_of_unknown hnone]⟩
  · exact .inl ⟨t, ht, hout, by simp only [take, toggle_flips ht hout]⟩

theorem terminal_ne (hne : name ≠ other) (ht : s.board.terminal? name = some t)
    (ht' : s.board.terminal? other = some t') : t ≠ t' := by
  rintro rfl
  exact hne ((Board.signalName_of_terminal? ht).symm.trans (Board.signalName_of_terminal? ht'))

/-- Toggles of different signals may change places: each has the same answer as in the other order,
and the sessions after them are the same. -/
theorem toggle_comm (hne : name ≠ other) (s : Session) :
    s.answers [.toggle name, .toggle other] =
        (s.answers [.toggle other, .toggle name]).reverse ∧
      Same (s.afterAll [.toggle name, .toggle other])
        (s.afterAll [.toggle other, .toggle name]) := by
  simp only [answers, afterAll, List.foldl_cons, List.foldl_nil, after, List.reverse_cons,
    List.reverse_nil, List.nil_append, List.singleton_append]
  rcases s.take_toggle_cases name with ⟨t, ht, hout, htake⟩ | ⟨hnone, htake⟩ <;>
    rcases s.take_toggle_cases other with ⟨t', ht', hout', htake'⟩ | ⟨hnone', htake'⟩ <;>
    simp only [htake, htake']
  · have hterminals : t ≠ t' := terminal_ne hne ht ht'
    have hsecond : (s.flip t).take (.toggle other) =
        (.toggled (.ok (!s.board.probes.contains t')), (s.flip t).flip t') := by
      have hstatus : (s.flip t).board.probes.contains t' = s.board.probes.contains t' := by
        rw [flip, Probes.contains_flip, if_neg hterminals.symm]
      rw [← hstatus, take, toggle_flips (s := s.flip t) ht' hout']
    have hsecond' : (s.flip t').take (.toggle name) =
        (.toggled (.ok (!s.board.probes.contains t)), (s.flip t').flip t) := by
      have hstatus : (s.flip t').board.probes.contains t = s.board.probes.contains t := by
        rw [flip, Probes.contains_flip, if_neg hterminals]
      rw [← hstatus, take, toggle_flips (s := s.flip t') ht hout]
    rw [hsecond, hsecond']
    exact ⟨rfl, rfl, rfl, rfl, Probes.flip_comm hterminals.symm _ _⟩
  · have hsecond : (s.flip t).take (.toggle other) =
        (.toggled (.error (.unknownSignal other)), s.flip t) := by
      rw [take, toggle_of_unknown (s := s.flip t) hnone']
    rw [hsecond]
    exact ⟨rfl, .refl _⟩
  · have hsecond : (s.flip t').take (.toggle name) =
        (.toggled (.error (.unknownSignal name)), s.flip t') := by
      rw [take, toggle_of_unknown (s := s.flip t') hnone]
    rw [hsecond]
    exact ⟨rfl, .refl _⟩
  · exact ⟨trivial, .refl _⟩

/-- The session after a toggle that has put a probe on an output, or taken it off, and nothing
else. -/
structure Toggled (s : Session) (t : Terminal) (probed : Bool) (s' : Session) : Prop where
  names : s'.board.names = s.board.names
  circuit : s'.board.circuit = s.board.circuit
  cycles : s'.cycles = s.cycles
  /-- The status of this output has changed, and of no other one. -/
  status : ∀ other, s'.board.probes.contains other ≠ s.board.probes.contains other ↔ other = t
  probed : s'.board.probes.contains t = probed
  traces : ∀ other, other ≠ t → s'.board.probes.trace? other = s.board.probes.trace? other

theorem toggled_flip (s : Session) (t : Terminal) :
    Toggled s t (!s.board.probes.contains t) (s.flip t) where
  names := rfl
  circuit := rfl
  cycles := rfl
  status other := by
    rw [flip, Probes.contains_flip]
    by_cases ho : other = t <;> simp [ho]
  probed := by rw [flip, Probes.contains_flip, if_pos rfl]
  traces other ho := Probes.trace?_flip_of_ne ho _

/-- **Toggling.** Whatever has been done in a session on a definition, a toggle that succeeds puts a
probe on the output that the name stands for, or takes it off, tells which of the two, and leaves
everything else as it is. Toggled once more, the signal is back on the list on which it was. If it
was not probed, then the session is back where it was; if it was, then all that is lost is its
trace, which is blank up to now. Toggles of different signals may change places. -/
theorem toggle_restores {limits : Limits} {source : String} {s₀ : Session}
    (hload : (load limits source).2 = .ok s₀) (steps : List Step) :
    let s := s₀.afterAll steps
    (∀ name probed s', s.toggle name = .ok (probed, s') →
      ∃ t ∈ s.board.circuit.terminals, s.board.signalName t = name ∧ Toggled s t probed s' ∧
        ∃ s'', s'.toggle name = .ok (!probed, s'') ∧
          s''.board.monitored = s.board.monitored ∧ s''.board.unmonitored = s.board.unmonitored ∧
          (probed = true → s'' = s) ∧ (probed = false → Same (s.blank t) s'')) ∧
      ∀ name other, name ≠ other →
        s.answers [.toggle name, .toggle other] =
            (s.answers [.toggle other, .toggle name]).reverse ∧
          Same (s.afterAll [.toggle name, .toggle other])
            (s.afterAll [.toggle other, .toggle name]) := by
  intro s
  have hs : s.board.WellFormed := (leads_afterAll s₀ steps).wellFormed (wellFormed_of_load hload)
  refine ⟨fun name probed s' htoggle => ?_, fun name other hne => toggle_comm hne s⟩
  obtain ⟨t, ht, hout, rfl, rfl⟩ := toggle_eq_flip htoggle
  have hagain : (s.flip t).toggle name =
      .ok (!(s.flip t).board.probes.contains t, (s.flip t).flip t) :=
    toggle_flips (s := s.flip t) ht hout
  rw [(toggled_flip s t).probed] at hagain
  have hstatus : ((s.flip t).flip t).board.probes.contains = s.board.probes.contains :=
    funext (Probes.contains_flip_flip _ t _ _)
  refine ⟨t, (Circuit.mem_terminals_iff hs.circuit.nodup).2 hout, Board.signalName_of_terminal? ht,
    toggled_flip s t, _, hagain, ?_, ?_, fun hprobed => ?_, fun hprobed => ?_⟩
  · rw [Board.monitored, hstatus]
    rfl
  · rw [Board.unmonitored, hstatus]
    rfl
  · have hoff : s.board.probes.contains t = false := by simpa using hprobed
    have hprobes := Probes.flip_flip_of_unprobed hoff s.cycles s.cycles
    show ({ s with board := { s.board with
      probes := (s.board.probes.flip t s.cycles).flip t s.cycles } } : Session) = s
    rw [hprobes]
  · have hon : s.board.probes.contains t = true := by simpa using hprobed
    exact ⟨rfl, rfl, rfl, Probes.flip_flip_of_probed hs.probes.nodup hon _ _⟩

/-- After a run that is cut short, the probe of the gate is taken off and put on again, and the
clock gets one. -/
theorem gatedRing_toggle_restores :
    (load { passes := 0 } gatedRingText).2 = .ok gatedRing ∧ "G" ≠ "C" ∧
      ∃ s s' s'', s = gatedRing.afterAll [.run 5] ∧ s.toggle "G" = .ok (false, s') ∧
        s'.toggle "G" = .ok (true, s'') ∧ s''.board.monitored = ["G"] ∧
        s''.board.unmonitored = ["C", "S"] ∧ Same (s.blank ⟨⟨5⟩, .out⟩) s'' ∧
        Same (s.afterAll [.toggle "G", .toggle "C"]) (s.afterAll [.toggle "C", .toggle "G"]) := by
  have hmain := toggle_restores load_gatedRing [.run 5]
  obtain ⟨s, hs⟩ : ∃ s, s = gatedRing.afterAll [.run 5] := ⟨_, rfl⟩
  have hlists : s.board.monitored = ["G"] ∧ s.board.unmonitored = ["C", "S"] := by
    rw [hs]
    decide +kernel
  have hterminal : s.board.terminal? "G" = some ⟨⟨5⟩, .out⟩ := by
    rw [hs]
    decide +kernel
  have hprobed : s.board.circuit.hasTerminal ⟨⟨5⟩, .out⟩ = true ∧
      s.board.probes.contains ⟨⟨5⟩, .out⟩ = true := by
    rw [hs]
    decide +kernel
  have htoggle := toggle_flips hterminal hprobed.1
  rw [hprobed.2, Bool.not_true] at htoggle
  simp only [← hs] at hmain
  obtain ⟨t, -, -, htoggled, s'', hagain, hmonitored, hunmonitored, -, hblank⟩ :=
    hmain.1 "G" false _ htoggle
  obtain rfl : ⟨⟨5⟩, .out⟩ = t := by
    rw [← htoggled.status]
    exact ((toggled_flip s _).status _).2 rfl
  exact ⟨load_gatedRing, by decide, s, _, s'', hs, htoggle, hagain, hmonitored.trans hlists.1,
    hunmonitored.trans hlists.2, hblank rfl, (hmain.2 "G" "C" (by decide)).2⟩

end Session

end Breadboard
