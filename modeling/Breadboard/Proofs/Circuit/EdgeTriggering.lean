import Breadboard.Proofs.Circuit.Forcing

/-!
# Edge triggering

A flip-flop whose `CLK`, `SET` and `CLEAR` are open or driven directly by clocks and switches reads
the same levels there all through a cycle, once the clocks have ticked. So it obeys `SET` and
`CLEAR`, and stores `DATA` at most once, in the first round, although the rest of the circuit may
change on and on, what drives `DATA` included.

* `Spent.refresh`, `Spent.latch`: a flip-flop that has sampled its clock and obeyed `SET` and
  `CLEAR` is not changed by anything that happens later in the cycle.
* `timesLatched_of_settle`: it stores `DATA` in the first round after settling, or in none.
* `flipFlop?_cycle`: what a cycle makes of the flip-flop, whether it comes to rest or not.
-/
namespace Breadboard

/-- What the flip-flop is after a cycle, given the levels that `CLK`, `SET` and `CLEAR` have all the
time and the level that `DATA` has when flip-flops are first sampled. -/
def FlipFlop.triggered (read : Option Terminal → Bool) (data : Bool) (ff : FlipFlop) : FlipFlop :=
  { ff with
    stored :=
      if read ff.set then true
      else if read ff.clear then false
      else if read ff.clk && !ff.lastClk then data
      else ff.stored
    lastClk := read ff.clk }

namespace Circuit

variable {c c' e : Circuit} {id : NameId} {ff : FlipFlop}

/-- The inputs of the flip-flop other than `DATA` are open or driven directly by a clock or a
switch. -/
structure DirectlyClocked (c : Circuit) (ff : FlipFlop) : Prop where
  clk : c.IsSource ff.clk
  set : c.IsSource ff.set
  clear : c.IsSource ff.clear

theorem DirectlyClocked.triggered (h : c.DirectlyClocked ff) (read : Option Terminal → Bool)
    (data : Bool) : c.DirectlyClocked (ff.triggered read data) :=
  ⟨h.clk, h.set, h.clear⟩

theorem DirectlyClocked.of_agreeOn_bare (h : c.DirectlyClocked ff) (hb : AgreeOn Logic.bare c c') :
    c'.DirectlyClocked ff :=
  ⟨h.clk.of_agreeOn_bare hb, h.set.of_agreeOn_bare hb, h.clear.of_agreeOn_bare hb⟩

/-- Whether the device is a flip-flop that stores `DATA` when the circuit latches. -/
def latchesAt (c : Circuit) (id : NameId) : Bool := (c.flipFlop? id).any (·.latches c.read)

/-- In how many of the rounds that `latchWithin` makes the device stores `DATA`. -/
def timesLatched (id : NameId) : Nat → Circuit → Nat
  | 0, _ => 0
  | n + 1, c =>
    let here := (c.latchesAt id).toNat
    if c.latch.stored = c.stored then here
    else
      match c.latch.settle with
      | (true, settled) => here + timesLatched id n settled
      | (false, _) => here

/-! ## Flip-flops that have done their part -/

/-- In the circuit `e`, which a cycle has made of `c`, the flip-flop has sampled its clock and
obeyed `SET` and `CLEAR`. -/
structure Spent (c : Circuit) (id : NameId) (ff : FlipFlop) (e : Circuit) : Prop where
  fixed : AgreeOn Logic.fixed c e
  flipFlop? : e.flipFlop? id = some ff
  sampled : ff.lastClk = c.read ff.clk
  obeyed : (ff.forced? c.read).getD ff.stored = ff.stored

namespace Spent

theorem refresh (hdirect : c.DirectlyClocked ff) (h : c.Spent id ff e) (x : NameId) :
    c.Spent id ff (e.refresh x) := by
  have hforced : ff.forced? e.read = ff.forced? c.read :=
    forced?_eq_of_isSource hdirect.set hdirect.clear h.fixed
  refine ⟨h.fixed.trans (agreeOn_refresh
    (fun read l => Logic.fixed_of_kept_eq (l.kept_refresh read)) e x), ?_, h.sampled, h.obeyed⟩
  rw [flipFlop?_refresh h.flipFlop?, hforced, h.obeyed, ite_self]

/-- The clock still has the level that was sampled. -/
theorem latches_eq_false (hdirect : c.DirectlyClocked ff) (h : c.Spent id ff e) :
    ff.latches e.read = false := by
  rw [FlipFlop.latches, hdirect.clk.read_eq h.fixed, h.sampled]
  cases c.read ff.clk <;> rfl

theorem latch (hdirect : c.DirectlyClocked ff) (h : c.Spent id ff e) : c.Spent id ff e.latch := by
  refine ⟨h.fixed.trans (agreeOn_fixed_latch e), ?_, h.sampled, h.obeyed⟩
  have hlatch : ff.latch e.read = ff := by
    rw [FlipFlop.latch, h.latches_eq_false hdirect, hdirect.clk.read_eq h.fixed, ← h.sampled]
    rfl
  rw [flipFlop?_latch h.flipFlop?, hlatch]

theorem settle (hdirect : c.DirectlyClocked ff) (h : c.Spent id ff e) :
    c.Spent id ff e.settle.2 :=
  settleWithin_preserves (fun _ x h => h.refresh hdirect x) _ h

/-- A flip-flop that has done its part stores `DATA` in no round. -/
theorem timesLatched_eq_zero (hdirect : c.DirectlyClocked ff) (h : c.Spent id ff e) (n : Nat) :
    timesLatched id n e = 0 := by
  induction n generalizing e with
  | zero => rfl
  | succ n ih =>
    have hhere : e.latchesAt id = false := by
      rw [latchesAt, h.flipFlop?]
      exact h.latches_eq_false hdirect
    have hsettle := (h.latch hdirect).settle hdirect
    unfold timesLatched
    simp only [hhere, Bool.toNat_false, Nat.zero_add]
    split
    · rfl
    · split
      · rename_i hs
        rw [hs] at hsettle
        exact ih hsettle
      · rfl

end Spent

/-! ## A cycle -/

/-- The first sample after settling is the one that counts. -/
theorem spent_latch_of_settle (hn : c.ids.Nodup) (hdirect : c.DirectlyClocked ff)
    (hff : c.flipFlop? id = some ff) (hs : c.settle = (true, c')) :
    c.Spent id (ff.triggered c.read (c'.read ff.data)) c'.latch := by
  have hfixed : AgreeOn Logic.fixed c c' := agreeOn_fixed_settle hs
  have hforced := forced?_eq_of_isSource hdirect.set hdirect.clear hfixed
  have hclk := hdirect.clk.read_eq hfixed
  have hpreset := flipFlop?_settle_of_isSource hdirect.set hdirect.clear hn hs hff
  refine ⟨hfixed.trans (agreeOn_fixed_latch c'), ?_, rfl, ?_⟩
  · rw [flipFlop?_latch hpreset, Option.some.injEq]
    show { ff with
      stored :=
        if c'.read ff.clk && !ff.lastClk && (ff.forced? c'.read).isNone then c'.read ff.data
        else (ff.forced? c.read).getD ff.stored
      lastClk := c'.read ff.clk } = _
    rw [hforced, hclk, FlipFlop.forced?, FlipFlop.triggered]
    by_cases hset : c.read ff.set <;> by_cases hclear : c.read ff.clear <;> simp [hset, hclear]
  · show (ff.forced? c.read).getD _ = _
    rw [FlipFlop.forced?, FlipFlop.triggered]
    by_cases hset : c.read ff.set <;> by_cases hclear : c.read ff.clear <;> simp [hset, hclear]

/-- Of the rounds after settling, the flip-flop stores `DATA` in the first one or in none. -/
theorem timesLatched_of_settle (hn : c.ids.Nodup) (hdirect : c.DirectlyClocked ff)
    (hff : c.flipFlop? id = some ff) (hs : c.settle = (true, c')) (n : Nat) :
    timesLatched id (n + 1) c' =
      (c.read ff.clk && !ff.lastClk && !c.read ff.set && !c.read ff.clear).toNat := by
  have hdirect' := hdirect.triggered c.read (c'.read ff.data)
  have hsettle := (spent_latch_of_settle hn hdirect hff hs).settle hdirect'
  have hfixed : AgreeOn Logic.fixed c c' := agreeOn_fixed_settle hs
  have hfirst : c'.latchesAt id =
      (c.read ff.clk && !ff.lastClk && !c.read ff.set && !c.read ff.clear) := by
    rw [latchesAt, flipFlop?_settle_of_isSource hdirect.set hdirect.clear hn hs hff]
    show (c'.read ff.clk && !ff.lastClk && (ff.forced? c'.read).isNone) = _
    rw [hdirect.clk.read_eq hfixed, forced?_eq_of_isSource hdirect.set hdirect.clear hfixed,
      FlipFlop.forced?]
    by_cases hset : c.read ff.set <;> by_cases hclear : c.read ff.clear <;> simp [hset, hclear]
  rw [timesLatched, hfirst]
  split
  · rfl
  · split
    · rename_i hs'
      rw [hs'] at hsettle
      rw [hsettle.timesLatched_eq_zero hdirect', Nat.add_zero]
    · rfl

theorem flipFlop?_tick (c : Circuit) (id : NameId) : c.tick.flipFlop? id = c.flipFlop? id := by
  have htick : ∀ l : Logic, l.tick.flipFlop? = l.flipFlop? := fun l => by cases l <;> rfl
  exact (AgreeOn.mapLogic htick c).flipFlop? (fun h => h) id

/-- **Edge triggering.** Take a flip-flop whose `CLK`, `SET` and `CLEAR` are open or driven directly
by clocks and switches, in any circuit. If the circuit settles when the clocks have ticked, then,
however many rounds follow and whether the cycle comes to rest or not, `SET`, `CLEAR` and `CLK` keep
their levels, and the flip-flop ends up high or low as `SET` or `CLEAR` say; else, on a rising edge,
with the level that `DATA` had when the circuit had settled; else as it was. It stores `DATA` in one
round, if the edge rises and nothing is forced, and in no round otherwise. -/
theorem flipFlop?_cycle (hc : c.Assembled) (hff : c.flipFlop? id = some ff)
    (hdirect : c.DirectlyClocked ff) (hs : c.tick.settle = (true, c')) :
    c.cycle.2.flipFlop? id = some (ff.triggered c.tick.read (c'.read ff.data)) ∧
      (∀ driver ∈ [ff.clk, ff.set, ff.clear], c.cycle.2.read driver = c.tick.read driver) ∧
      timesLatched id c'.settleBound c' =
        (c.tick.read ff.clk && !ff.lastClk && !c.tick.read ff.set &&
          !c.tick.read ff.clear).toNat := by
  have hn : c.tick.ids.Nodup := by
    rw [ids_tick]
    exact hc.nodup
  have hff₀ : c.tick.flipFlop? id = some ff := (flipFlop?_tick c id).trans hff
  have hdirect₀ : c.tick.DirectlyClocked ff := hdirect.of_agreeOn_bare (.of_bare_eq (bare_tick c))
  have hdirect' := hdirect₀.triggered c.tick.read (c'.read ff.data)
  have hspent := spent_latch_of_settle hn hdirect₀ hff₀ hs
  obtain ⟨n, hbound⟩ := c'.exists_settleBound_eq
  have hcycle : c.tick.Spent id (ff.triggered c.tick.read (c'.read ff.data)) c.cycle.2 := by
    rw [cycle, hs]
    simp only [hbound]
    exact latchWithin_succ_preserves (fun _ x h => h.refresh hdirect' x)
      (fun _ h => h.latch hdirect') n hspent
  refine ⟨hcycle.flipFlop?, fun driver hdriver => ?_, ?_⟩
  · simp only [List.mem_cons, List.not_mem_nil, or_false] at hdriver
    rcases hdriver with rfl | rfl | rfl
    · exact hdirect₀.clk.read_eq hcycle.fixed
    · exact hdirect₀.set.read_eq hcycle.fixed
    · exact hdirect₀.clear.read_eq hcycle.fixed
  · rw [hbound]
    exact timesLatched_of_settle hn hdirect₀ hff₀ hs n

/-- A gate that starts to oscillate when the flip-flop, whose `DATA` it drives, has stored a high
level. -/
def gatedOscillator (clock stored last output : Bool) : Circuit where
  devices :=
    [⟨⟨0⟩, .clock { halfPeriod := 1, output := clock }⟩,
      ⟨⟨1⟩, .dtype
        { clk := some ⟨⟨0⟩, .out⟩, data := some ⟨⟨2⟩, .out⟩, stored, lastClk := last }⟩,
      ⟨⟨2⟩, .gate { kind := .nand, inputs := [some ⟨⟨1⟩, .q⟩, some ⟨⟨2⟩, .out⟩], output }⟩]
  passLimit := 0

theorem assembled_gatedOscillator (clock stored last output : Bool) :
    (gatedOscillator clock stored last output).Assembled := by
  let steps : List Assembly :=
    [.device ⟨0⟩ .clock (some 1), .device ⟨1⟩ .dtype none, .device ⟨2⟩ (.gate .nand) none,
      .wire ⟨⟨0⟩, .out⟩ ⟨1⟩ .clk, .wire ⟨⟨2⟩, .out⟩ ⟨1⟩ .data, .wire ⟨⟨1⟩, .q⟩ ⟨2⟩ (.gate 1),
      .wire ⟨⟨2⟩, .out⟩ ⟨2⟩ (.gate 2)]
  exact (assembled_assemble 0 steps).restate (by rfl)

/-- The flip-flop keeps what it has stored on the edge, in a cycle that does not come to rest. -/
theorem gatedOscillator_triggered :
    let c := gatedOscillator false false false true
    let settled := gatedOscillator true false false true
    let ff : FlipFlop := { clk := some ⟨⟨0⟩, .out⟩, data := some ⟨⟨2⟩, .out⟩ }
    c.Assembled ∧ c.flipFlop? ⟨1⟩ = some ff ∧ c.DirectlyClocked ff ∧
      c.tick.settle = (true, settled) ∧ c.cycle.1 = .error (.outputs 4) ∧
      c.cycle.2.flipFlop? ⟨1⟩ = some { ff with stored := true, lastClk := true } ∧
      timesLatched ⟨1⟩ settled.settleBound settled = 1 := by
  intro c settled ff
  have hassembled : c.Assembled := assembled_gatedOscillator false false false true
  have hff : c.flipFlop? ⟨1⟩ = some ff := by rfl
  have hdirect : c.DirectlyClocked ff := by
    refine ⟨fun t ht => ?_, fun t ht => ?_, fun t ht => ?_⟩
    · cases ht
      exact ⟨_, rfl, .inr rfl⟩
    all_goals cases ht
  have hs : c.tick.settle = (true, settled) := by decide +kernel
  obtain ⟨hstored, -, htimes⟩ := flipFlop?_cycle hassembled hff hdirect hs
  exact ⟨hassembled, hff, hdirect, hs, by decide +kernel, hstored, htimes⟩

end Circuit

end Breadboard
