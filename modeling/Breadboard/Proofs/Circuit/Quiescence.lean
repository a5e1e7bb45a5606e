import Breadboard.Proofs.Circuit.Latching

/-!
# Quiescence

A cycle that comes to rest leaves a circuit in which nothing is left to do: every gate shows
its function of what it reads now, `SET` and `CLEAR` have been obeyed, and every flip-flop has
seen the level of its clock. Such a circuit stays as it is until a clock or a switch changes.

* `quiescent_of_cycle_ok`: the state after a successful cycle is quiescent, and a further cycle
  in which no clock changes its output succeeds and only counts.
-/
namespace Breadboard

/-- A clock counts a cycle without changing its output; the other parts stay as they are. -/
def Logic.count : Logic → Logic
  | clock c => clock { c with counter := c.counter + 1 }
  | l => l

theorem Logic.output?_count (l : Logic) (pin : OutputPin) :
    l.count.output? pin = l.output? pin := by
  cases l with
  | clock k => cases pin <;> rfl
  | gate | switch | dtype => rfl

namespace Circuit

variable {c : Circuit}

/-- Nothing is left to do in the circuit, for the levels that its inputs read now. -/
structure Quiescent (c : Circuit) : Prop where
  gate : ∀ d ∈ c.devices, ∀ g, d.logic = .gate g →
    g.output = g.kind.evaluate (g.inputs.map c.read)
  set : ∀ d ∈ c.devices, ∀ ff, d.logic = .dtype ff → c.read ff.set = true → ff.stored = true
  clear : ∀ d ∈ c.devices, ∀ ff, d.logic = .dtype ff → c.read ff.set = false →
    c.read ff.clear = true → ff.stored = false
  clk : ∀ d ∈ c.devices, ∀ ff, d.logic = .dtype ff → ff.lastClk = c.read ff.clk

/-- No clock changes its output in the next cycle. -/
def NoClockTurns (c : Circuit) : Prop :=
  ∀ d ∈ c.devices, ∀ k, d.logic = .clock k → k.tick.output = k.output

/-- A settled circuit in which every clock is sampled is quiescent. -/
theorem quiescent_of_rest (hn : c.ids.Nodup) (h : ∀ id, c.Settled id ∧ c.Sampled id) :
    c.Quiescent := by
  have hfind : ∀ d ∈ c.devices, c.find? d.id = some d :=
    fun d hd => (find?_eq_some_iff hn).2 ⟨hd, rfl⟩
  have hsettled : ∀ d ∈ c.devices, d.logic.refresh c.read = d.logic :=
    fun d hd => (h d.id).1 d (hfind d hd)
  have hstored : ∀ d ∈ c.devices, ∀ ff, d.logic = .dtype ff →
      (ff.forced? c.read).getD ff.stored = ff.stored := by
    intro d hd ff hff
    have hr := hsettled d hd
    simp only [hff, Logic.refresh, Logic.dtype.injEq] at hr
    exact congrArg FlipFlop.stored hr
  refine ⟨fun d hd g hg => ?_, fun d hd ff hff hset => ?_, fun d hd ff hff hset hclear => ?_,
    fun d hd ff hff => (h d.id).2 d (hfind d hd) ff hff⟩
  · have hr := hsettled d hd
    simp only [hg, Logic.refresh, Logic.gate.injEq] at hr
    exact (congrArg Gate.output hr).symm
  · simpa [FlipFlop.forced?, hset] using (hstored d hd ff hff).symm
  · simpa [FlipFlop.forced?, hset, hclear] using (hstored d hd ff hff).symm

/-! ## A further cycle -/

theorem tick_eq_count (h : c.NoClockTurns) : c.tick = c.mapLogic Logic.count := by
  simp only [tick, mapLogic, Circuit.mk.injEq, and_true]
  refine List.map_congr_left fun d hd => ?_
  obtain ⟨id, l⟩ := d
  cases l with
  | clock k =>
    have hk := h _ hd k rfl
    simp only [Device.mapLogic, Logic.tick, Logic.count, Clock.tick] at hk ⊢
    split at hk
    · cases hout : k.output <;> simp [hout] at hk
    · rename_i hlt
      rw [if_neg hlt]
  | gate | switch | dtype => rfl

theorem find?_count (c : Circuit) (id : NameId) :
    (c.mapLogic Logic.count).find? id = (c.find? id).map (·.mapLogic Logic.count) :=
  find?_mapLogic c _ id

theorem read_count (c : Circuit) : (c.mapLogic Logic.count).read = c.read := by
  refine funext fun _ => read_congr fun t _ => ?_
  simp only [output?, find?_count]
  cases c.find? t.device with
  | none => rfl
  | some d => exact d.logic.output?_count t.pin

theorem rest_count (h : ∀ id, c.Settled id ∧ c.Sampled id) (id : NameId) :
    (c.mapLogic Logic.count).Settled id ∧ (c.mapLogic Logic.count).Sampled id := by
  have hback : ∀ e, (c.mapLogic Logic.count).find? id = some e →
      ∃ d, c.find? id = some d ∧ e.logic = d.logic.count := by
    intro e he
    rw [find?_count] at he
    obtain ⟨d, hd, rfl⟩ := Option.map_eq_some_iff.1 he
    exact ⟨d, hd, rfl⟩
  refine ⟨fun e he => ?_, fun e he ff hff => ?_⟩
  · obtain ⟨d, hd, hlogic⟩ := hback e he
    have hs := (h id).1 d hd
    rw [hlogic, read_count]
    cases hl : d.logic with
    | clock k => rfl
    | gate | switch | dtype => rw [hl] at hs; exact hs
  · obtain ⟨d, hd, hlogic⟩ := hback e he
    rw [read_count]
    refine (h id).2 d hd ff ?_
    rw [hlogic] at hff
    cases hl : d.logic with
    | dtype ff' => rw [hl] at hff; exact hff
    | gate | switch | clock => rw [hl] at hff; cases hff

theorem cycle_eq_count (hn : c.ids.Nodup) (h : ∀ id, c.Settled id ∧ c.Sampled id)
    (hturn : c.NoClockTurns) : c.cycle = (.ok (), c.mapLogic Logic.count) := by
  have hn' : (c.mapLogic Logic.count).ids.Nodup := by rwa [ids_mapLogic]
  have hrest := rest_count h
  obtain ⟨n, hbound⟩ := (c.mapLogic Logic.count).exists_settleBound_eq
  rw [cycle, tick_eq_count hturn, settle_eq_self hn' fun id => (hrest id).1]
  simp only
  rw [hbound, latchWithin_eq_self hn' fun id => (hrest id).2]

/-! ## The state after a cycle -/

theorem rest_of_cycle_ok {c' : Circuit} (hn : c.ids.Nodup) (h : c.cycle = (.ok (), c')) :
    ∀ id, c'.Settled id ∧ c'.Sampled id := by
  unfold cycle at h
  split at h
  · rename_i c₁ hsettle
    have htick : c.tick.ids.Nodup := by rwa [ids_tick]
    have hn₁ : c₁.ids.Nodup := by rwa [← ids_settle, hsettle] at htick
    exact rest_of_latchWithin_ok hn₁ (settled_of_settle htick hsettle) h
  · cases h

/-- **Quiescence.** Whatever the feedback, a successful cycle leaves every gate at its function
of what it reads, every flip-flop at what `SET` and `CLEAR` demand, and every clock sampled. So
a further cycle in which no clock turns succeeds as well, and changes nothing but the counters
of the clocks. -/
theorem quiescent_of_cycle_ok {c c' : Circuit} (hc : c.Assembled)
    (h : c.cycle = (.ok (), c')) :
    c'.Quiescent ∧ (c'.NoClockTurns → c'.cycle = (.ok (), c'.mapLogic Logic.count)) := by
  have hn' : c'.ids.Nodup := by
    have := hc.cycle.nodup
    rwa [h] at this
  have hrest := rest_of_cycle_ok hc.nodup h
  exact ⟨quiescent_of_rest hn' hrest, cycle_eq_count hn' hrest⟩

/-- A clock, a flip-flop that halves it, and a latch of two crossed gates that the flip-flop
resets, in a given state. -/
def latchedDivider (counter : UInt32) (output stored lastClk first second : Bool) : Circuit where
  devices :=
    [⟨⟨0⟩, .clock { halfPeriod := 2, counter, output }⟩,
      ⟨⟨1⟩, .dtype { clk := some ⟨⟨0⟩, .out⟩, data := some ⟨⟨1⟩, .qbar⟩, stored, lastClk }⟩,
      ⟨⟨2⟩, .gate { kind := .nor, inputs := [some ⟨⟨1⟩, .q⟩, some ⟨⟨3⟩, .out⟩], output := first }⟩,
      ⟨⟨3⟩, .gate { kind := .nor, inputs := [some ⟨⟨2⟩, .out⟩, none], output := second }⟩]
  passLimit := 1

theorem assembled_latchedDivider (counter : UInt32) (output stored lastClk first second : Bool) :
    (latchedDivider counter output stored lastClk first second).Assembled := by
  let steps : List Assembly :=
    [.device ⟨0⟩ .clock (some 2), .device ⟨1⟩ .dtype none, .device ⟨2⟩ (.gate .nor) none,
      .device ⟨3⟩ (.gate .nor) none, .wire ⟨⟨0⟩, .out⟩ ⟨1⟩ .clk, .wire ⟨⟨1⟩, .qbar⟩ ⟨1⟩ .data,
      .wire ⟨⟨1⟩, .q⟩ ⟨2⟩ (.gate 1), .wire ⟨⟨3⟩, .out⟩ ⟨2⟩ (.gate 2),
      .wire ⟨⟨2⟩, .out⟩ ⟨3⟩ (.gate 1)]
  exact (assembled_assemble 1 steps).restate (by rfl)

/-- In the cycle in which the clock turns, the flip-flop stores and the latch flips. -/
theorem cycle_latchedDivider :
    (latchedDivider 1 false false false true false).cycle =
      (.ok (), latchedDivider 0 true true true false true) := by
  have htick : (latchedDivider 1 false false false true false).tick =
      latchedDivider 0 true false false true false := by rfl
  have hsettle : (latchedDivider 0 true false false true false).settle =
      (true, latchedDivider 0 true false false true false) := by decide +kernel
  have hlatch : (latchedDivider 0 true false false true false).latch =
      latchedDivider 0 true true true true false := by rfl
  have hsettle' : (latchedDivider 0 true true true true false).settle =
      (true, latchedDivider 0 true true true false true) := by decide +kernel
  have hlatch' : (latchedDivider 0 true true true false true).latch =
      latchedDivider 0 true true true false true := by rfl
  have hbound : (latchedDivider 0 true false false true false).settleBound = 5 := by rfl
  have hstored : (latchedDivider 0 true true true true false).stored ≠
      (latchedDivider 0 true false false true false).stored := by decide
  rw [cycle, htick, hsettle]
  show latchWithin (latchedDivider 0 true false false true false).settleBound _ = _
  rw [hbound, latchWithin, hlatch, if_neg hstored, hsettle']
  show latchWithin 4 _ = _
  rw [latchWithin, hlatch', if_pos rfl]

/-- After that cycle nothing is left to do, and the next one only counts. -/
theorem latchedDivider_quiescent :
    (latchedDivider 1 false false false true false).Assembled ∧
      (latchedDivider 0 true true true false true).Quiescent ∧
      (latchedDivider 0 true true true false true).NoClockTurns ∧
      (latchedDivider 0 true true true false true).cycle =
        (.ok (), latchedDivider 1 true true true false true) := by
  have hassembled := assembled_latchedDivider 1 false false false true false
  obtain ⟨hquiescent, hcount⟩ :=
    quiescent_of_cycle_ok hassembled cycle_latchedDivider
  have hturn : (latchedDivider 0 true true true false true).NoClockTurns := by
    intro d hd k hk
    simp only [latchedDivider, List.mem_cons, List.not_mem_nil, or_false] at hd
    rcases hd with rfl | rfl | rfl | rfl
    · obtain rfl := Logic.clock.inj hk
      rfl
    all_goals cases hk
  exact ⟨hassembled, hquiescent, hturn, hcount hturn⟩

end Circuit

end Breadboard
