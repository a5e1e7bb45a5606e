import Breadboard.Proofs.Session.Steps

/-!
# What traces tell

Every trace has one entry for each cycle recorded. The entries of the cycles that its probe has
missed are blank, and the others are the levels that its output had when they were recorded,
whatever the steps in between: runs that are cut short, switches, probes taken off and put on
again, resets.

`History` is the account of the steps that the traces are compared with. It has the circuits as
they were when they were recorded, and for each output when its probe was last put on.

* `trace?_run`, `cycles_run`: a run adds the levels of the circuits it records, and no more.
* `Aligned.after`: every step keeps traces and history in line.
* `traces_tell`: the main result, for every sequence of steps.
-/
namespace Breadboard.Session

variable {s s' : Session}

/-! ## Runs -/

/-- The circuits that a run records: one for each cycle, up to the first one that does not come to
rest. -/
def recordings : Nat → Session → List Circuit
  | 0, _ => []
  | n + 1, s =>
    match s.execute with
    | (.ok (), s) => s.board.circuit :: recordings n s.record
    | (.error _, _) => []

theorem recordings_succ_of_ok (h : s.execute = (.ok (), s')) (n : Nat) :
    s.recordings (n + 1) = s'.board.circuit :: s'.record.recordings n := by
  rw [recordings, h]

theorem recordings_succ_of_error {unrest : Unrest} (h : s.execute = (.error unrest, s'))
    (n : Nat) : s.recordings (n + 1) = [] := by
  rw [recordings, h]

theorem cycles_run (n : Nat) (s : Session) :
    (s.run n).2.cycles = s.cycles + (s.recordings n).length := by
  induction n generalizing s with
  | zero => rfl
  | succ n ih =>
    have hcycles : s.execute.2.cycles = s.cycles := rfl
    rcases he : s.execute with ⟨unrest | ⟨⟩, e⟩ <;> rw [he] at hcycles
    · rw [run_succ_of_error he, recordings_succ_of_error he]
      exact hcycles
    · have hrecord : e.record.cycles = s.cycles + 1 := congrArg (· + 1) hcycles
      rw [run_succ_of_ok he, recordings_succ_of_ok he, ih, List.length_cons, hrecord]
      omega

/-- A run adds to each trace the levels of the circuits that it records. -/
theorem trace?_run (n : Nat) (s : Session) (t : Terminal) :
    (s.run n).2.board.probes.trace? t = (s.board.probes.trace? t).map fun samples =>
      samples ++ ((s.recordings n).map (Probes.sample · t)).toArray := by
  induction n generalizing s with
  | zero => simp [run, recordings]
  | succ n ih =>
    have hprobes : s.execute.2.board.probes = s.board.probes := rfl
    rcases he : s.execute with ⟨unrest | ⟨⟩, e⟩ <;> rw [he] at hprobes
    · rw [run_succ_of_error he, recordings_succ_of_error he, hprobes]
      simp
    · rw [run_succ_of_ok he, recordings_succ_of_ok he, ih, record, Board.record,
        Probes.trace?_record, hprobes, Option.map_map]
      refine congrArg (Option.map · _) (funext fun samples => ?_)
      simp

/-- A run of the given number of cycles ends with the unrest of a cycle after those that were
recorded. -/
structure CutShort (s : Session) (n recorded : Nat) (unrest : Unrest) : Prop where
  lt : recorded < n
  rest : (s.run recorded).1 = .ok ()
  unrest : (s.run recorded).2.execute.1 = .error unrest
  session : (s.run n).2 = (s.run recorded).2.execute.2
  /-- Nothing is counted for the last cycle. -/
  cycles : (s.run n).2.cycles = s.cycles + recorded
  /-- Every trace gets an entry for each cycle before the last one, and none for that. -/
  traces : ∀ t, ∃ added : Trace, added.size = recorded ∧
    (s.run n).2.board.probes.trace? t = (s.board.probes.trace? t).map (· ++ added)

theorem cutShort_of_run_error {n : Nat} {unrest : Unrest} (h : (s.run n).1 = .error unrest) :
    s.CutShort n (s.recordings n).length unrest := by
  have hrun : (s.recordings n).length < n ∧ (s.run (s.recordings n).length).1 = .ok () ∧
      (s.run (s.recordings n).length).2.execute.1 = .error unrest ∧
      (s.run n).2 = (s.run (s.recordings n).length).2.execute.2 := by
    induction n generalizing s with
    | zero => cases h
    | succ n ih =>
      rcases he : s.execute with ⟨u | ⟨⟩, e⟩
      · rw [run_succ_of_error he] at h ⊢
        cases h
        rw [recordings_succ_of_error he]
        exact ⟨n.succ_pos, rfl, congrArg Prod.fst he, (congrArg Prod.snd he).symm⟩
      · rw [run_succ_of_ok he] at h ⊢
        obtain ⟨hlt, hrest, hunrest, hsession⟩ := ih h
        rw [recordings_succ_of_ok he, List.length_cons, run_succ_of_ok he]
        exact ⟨Nat.succ_lt_succ hlt, hrest, hunrest, hsession⟩
  obtain ⟨hlt, hrest, hunrest, hsession⟩ := hrun
  refine ⟨hlt, hrest, hunrest, hsession, cycles_run n s, fun t => ?_⟩
  exact ⟨((s.recordings n).map (Probes.sample · t)).toArray, by simp, trace?_run n s t⟩

/-! ## Histories -/

/-- What has happened since loading or the last reset. -/
structure History where
  /-- The circuits as they were when they were recorded, the earliest first. -/
  recorded : List Circuit := []
  /-- How many cycles had been recorded when a probe was last put on an output; zero if it has been
  there all along. -/
  since : Terminal → Nat := fun _ => 0

namespace History

/-- The history after a step that is taken in a session. -/
def after (h : History) (s : Session) : Step → History
  | .run cycles => { h with recorded := h.recorded ++ s.recordings cycles }
  | .record => { h with recorded := h.recorded ++ [s.board.circuit] }
  | .toggle name =>
    match s.board.terminal? name, s.toggle name with
    | some t, .ok (true, _) => { h with since := Function.update h.since t s.cycles }
    | _, _ => h
  | .reset => {}
  | .execute | .setSwitch _ _ => h

def afterAll (h : History) (s : Session) : List Step → History
  | [] => h
  | step :: steps => (h.after s step).afterAll (s.after step) steps

/-- The trace that a probe on an output must have by now. -/
def traceOf (h : History) (t : Terminal) : Trace :=
  (List.replicate (h.since t) Sample.blank ++
    (h.recorded.drop (h.since t)).map (Probes.sample · t)).toArray

section
variable {h : History} {t : Terminal} {i : Nat}

theorem size_traceOf (hsince : h.since t ≤ h.recorded.length) :
    (h.traceOf t).size = h.recorded.length := by
  simp [traceOf]
  omega

theorem getElem?_traceOf_of_lt (hi : i < h.since t) : (h.traceOf t)[i]? = some .blank := by
  simp [traceOf, List.getElem?_append, hi]

theorem getElem?_traceOf_of_le (hi : i < h.recorded.length) (hle : h.since t ≤ i) :
    (h.traceOf t)[i]? = some (Probes.sample h.recorded[i] t) := by
  have hget : h.recorded[h.since t + (i - h.since t)]? = some h.recorded[i] := by
    rw [Nat.add_sub_cancel' hle, List.getElem?_eq_getElem hi]
  simp [traceOf, List.getElem?_append, Nat.not_lt.2 hle, hget]

end

/-- The trace of an output tells the history: blanks up to when its probe was put on, and then the
level of the output in each circuit recorded. -/
structure Tells (h : History) (t : Terminal) (samples : Trace) : Prop where
  size : samples.size = h.recorded.length
  since_le : h.since t ≤ samples.size
  blank_iff : ∀ i, samples[i]? = some .blank ↔ i < h.since t
  level : ∀ i (hi : i < h.recorded.length), h.since t ≤ i →
    ∃ level, h.recorded[i].output? t = some level ∧ samples[i]? = some (.ofLevel level)

end History

structure Aligned (h : History) (s : Session) : Prop where
  board : s.board.WellFormed
  cycles : s.cycles = h.recorded.length
  wiring : ∀ c ∈ h.recorded, c.bare = s.board.circuit.bare
  since_le : ∀ t, h.since t ≤ s.cycles
  traces : ∀ {t samples}, s.board.probes.trace? t = some samples → samples = h.traceOf t

namespace Aligned

variable {h : History}

theorem execute (ha : Aligned h s) : Aligned h s.execute.2 where
  board := Change.execute.wellFormed ha.board
  cycles := ha.cycles
  wiring c hc := (ha.wiring c hc).trans (Circuit.bare_cycle _).symm
  since_le := ha.since_le
  traces := ha.traces

/-- A recording appends to the history and to every trace. -/
theorem record (ha : Aligned h s) :
    Aligned { h with recorded := h.recorded ++ [s.board.circuit] } s.record where
  board := Change.record.wellFormed ha.board
  cycles := by rw [Session.record, ha.cycles, List.length_append, List.length_singleton]
  wiring c hc := by
    rcases List.mem_append.1 hc with hc | hc
    · exact ha.wiring c hc
    · rw [List.mem_singleton.1 hc]
      rfl
  since_le t := Nat.le_succ_of_le (ha.since_le t)
  traces := by
    intro t samples' ht
    rw [Session.record, Board.record, Probes.trace?_record, Option.map_eq_some_iff] at ht
    obtain ⟨samples, ht, rfl⟩ := ht
    have hsince : h.since t ≤ h.recorded.length := ha.cycles ▸ ha.since_le t
    rw [ha.traces ht, History.traceOf, History.traceOf, List.drop_append_of_le_length hsince]
    simp

theorem run (ha : Aligned h s) (n : Nat) :
    Aligned { h with recorded := h.recorded ++ s.recordings n } (s.run n).2 := by
  induction n generalizing s h with
  | zero =>
    rw [recordings, List.append_nil]
    exact ha
  | succ n ih =>
    have hexecute := ha.execute
    rcases he : s.execute with ⟨unrest | ⟨⟩, e⟩ <;> rw [he] at hexecute
    · rw [run_succ_of_error he, recordings_succ_of_error he, List.append_nil]
      exact hexecute
    · rw [run_succ_of_ok he, recordings_succ_of_ok he, List.append_cons]
      exact ih hexecute.record

theorem setSwitch {id : NameId} {closed : Bool} (ha : Aligned h s)
    (hset : s.setSwitch id closed = .ok s') : Aligned h s' := by
  have hchange : Change s s' := .setSwitch hset
  have hbare := hchange.bare_eq ha.board
  have hboard := hchange.wellFormed ha.board
  obtain ⟨circuit, -, rfl⟩ := setSwitch_eq_ok_iff.1 hset
  exact ⟨hboard, ha.cycles, fun c hc => (ha.wiring c hc).trans hbare.symm, ha.since_le, ha.traces⟩

/-- A probe that is put on starts with as many blanks as there are cycles in the history. -/
theorem toggle {name : String} {probed : Bool} (ha : Aligned h s)
    (htoggle : s.toggle name = .ok (probed, s')) : Aligned (h.after s (.toggle name)) s' := by
  have hboard := (Change.toggle htoggle).wellFormed ha.board
  obtain ⟨board, htaken, rfl⟩ := toggle_eq_ok_iff.1 htoggle
  obtain ⟨t, hname, -, ⟨rfl, -, rfl⟩ | ⟨rfl, -, probes, hadd, rfl⟩⟩ := Board.toggle_cases htaken
  · simp only [History.after, hname, htoggle]
    refine ⟨hboard, ha.cycles, ha.wiring, ha.since_le, fun {t' samples} ht => ?_⟩
    rw [Probes.trace?_remove] at ht
    split at ht
    · cases ht
    · exact ha.traces ht
  · simp only [History.after, hname, htoggle]
    refine ⟨hboard, ha.cycles, ha.wiring, fun t' => ?_, fun {t' samples} ht => ?_⟩
    · show Function.update h.since t s.cycles t' ≤ s.cycles
      by_cases ht' : t' = t
      · have hself : Function.update h.since t s.cycles t' = s.cycles := by
          rw [ht', Function.update_self]
        exact Nat.le_of_eq hself
      · rw [Function.update_of_ne ht']
        exact ha.since_le t'
    rw [Probes.trace?_add hadd] at ht
    by_cases ht' : t' = t
    · rw [if_pos ht', Option.some.injEq] at ht
      subst ht ht'
      simp [History.traceOf, ha.cycles]
    · rw [if_neg ht'] at ht
      rw [ha.traces ht]
      simp only [History.traceOf, Function.update_of_ne ht']

/-- A session that is as a reset leaves it is in line with a history in which nothing has
happened. -/
theorem of_reset_eq (hboard : s.board.WellFormed) (hreset : s.reset = s) : Aligned {} s where
  board := hboard
  cycles := congrArg Session.cycles hreset.symm
  wiring := by simp
  since_le t := Nat.zero_le _
  traces := by
    intro t samples ht
    rw [← hreset, Session.reset, Probes.trace?_clear, Option.map_eq_some_iff] at ht
    obtain ⟨_, -, rfl⟩ := ht
    rfl

/-- Every step keeps traces and history in line. -/
theorem after (ha : Aligned h s) (step : Step) : Aligned (h.after s step) (s.after step) := by
  cases step with
  | run cycles => exact ha.run cycles
  | execute => exact ha.execute
  | record => exact ha.record
  | setSwitch id closed =>
    simp only [Session.after, take]
    split
    · rename_i hset
      exact ha.setSwitch hset
    · exact ha
  | toggle name =>
    simp only [Session.after, take]
    split
    · rename_i htoggle
      exact ha.toggle htoggle
    · rename_i herror
      have hsame : h.after s (.toggle name) = h := by
        simp only [History.after, herror]
        split
        · rename_i hok
          cases hok
        · rfl
      rw [hsame]
      exact ha
  | reset => exact .of_reset_eq (Change.reset.wellFormed ha.board) (reset_reset s)

theorem afterAll (ha : Aligned h s) (steps : List Step) :
    Aligned (h.afterAll s steps) (s.afterAll steps) := by
  induction steps generalizing h s with
  | nil => exact ha
  | cons step steps ih => exact ih (ha.after step)

theorem exists_output? {t : Terminal} {samples : Trace} (ha : Aligned h s)
    (ht : s.board.probes.trace? t = some samples) {c : Circuit} (hc : c ∈ h.recorded) :
    ∃ level, c.output? t = some level :=
  (ha.board.probes.of_bare_eq (ha.wiring c hc)).exists_output? ht

theorem tells {t : Terminal} {samples : Trace} (ha : Aligned h s)
    (ht : s.board.probes.trace? t = some samples) : h.Tells t samples := by
  have hsince : h.since t ≤ h.recorded.length := ha.cycles ▸ ha.since_le t
  have hsize : samples.size = h.recorded.length := by
    rw [ha.traces ht, History.size_traceOf hsince]
  have hblank (i : Nat) (hi : i < h.since t) : samples[i]? = some .blank := by
    rw [ha.traces ht, History.getElem?_traceOf_of_lt hi]
  have hlevel (i : Nat) (hi : i < h.recorded.length) (hle : h.since t ≤ i) :
      ∃ level, h.recorded[i].output? t = some level ∧ samples[i]? = some (.ofLevel level) := by
    obtain ⟨level, hlevel⟩ := ha.exists_output? ht (List.getElem_mem hi)
    refine ⟨level, hlevel, ?_⟩
    rw [ha.traces ht, History.getElem?_traceOf_of_le hi hle, Probes.sample, hlevel]
    rfl
  refine ⟨hsize, hsize ▸ hsince, fun i => ⟨fun hi => ?_, hblank i⟩, hlevel⟩
  -- Once its probe is on, an output has a level in every circuit, so there are no blanks left.
  by_contra hle
  have hlt : i < h.recorded.length := by
    by_contra hge
    rw [Array.getElem?_eq_none (by omega)] at hi
    cases hi
  obtain ⟨level, -, hsome⟩ := hlevel i hlt (Nat.not_lt.1 hle)
  rw [hsome] at hi
  cases level <;> cases hi

end Aligned

end Breadboard.Session
