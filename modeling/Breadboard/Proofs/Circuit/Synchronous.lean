import Breadboard.Proofs.Circuit.Forcing

/-!
# Synchronous circuits

Where gates have no loop among themselves and every `CLK`, `SET` and `CLEAR` is open or driven
directly by a clock or a switch, a circuit is a synchronous machine. `Circuit.synchronous` is the
step of the machine: all flip-flops store at once what `DATA` evaluates to, and then all gates
show what they evaluate to for the new bits.

* `preset_latch`: a settled circuit that has latched holds the bits of the next state.
* `cycle_eq_synchronous`: a cycle is exactly one step of the machine, whatever the order of
  declaration and the outputs that gates had before.
-/
namespace Breadboard.Circuit

variable {c c' : Circuit} {id : NameId}

/-! ## The step of the machine -/

/-- Every `CLK`, `SET` and `CLEAR` is open or driven directly by a clock or a switch. -/
def DirectlyControlled (c : Circuit) : Prop :=
  ∀ id ff, c.flipFlop? id = some ff → ∀ driver ∈ [ff.clk, ff.set, ff.clear], c.IsSource driver

/-- The bit of a flip-flop once its clock has acted, too: on a rising edge it is what `DATA`
evaluates to while all flip-flops still show their preset bits. -/
def next (c : Circuit) (h : c.Loopless .combinational) (id : NameId) : Bool :=
  match c.flipFlop? id with
  | some ff =>
    if c.read ff.set || c.read ff.clear then c.preset id
    else if c.read ff.clk && !ff.lastClk then c.evalInput h c.preset ff.data
    else c.preset id
  | none => false

/-- What becomes of a part in a step of the machine. -/
def advance (c : Circuit) (h : c.Loopless .combinational) (id : NameId) : Logic → Logic
  | .gate g => .gate { g with output := g.kind.evaluate (g.inputs.map (c.evalInput h (c.next h))) }
  | .dtype ff => .dtype { ff with stored := c.next h id, lastClk := c.read ff.clk }
  | l => l

/-- The step of the machine, for clocks that have ticked. -/
def synchronous (c : Circuit) (h : c.Loopless .combinational) : Circuit :=
  { c with devices := c.devices.map fun d => d.mapLogic (c.advance h d.id) }

theorem find?_synchronous (h : c.Loopless .combinational) (id : NameId) :
    (c.synchronous h).find? id = (c.find? id).map (·.mapLogic (c.advance h id)) :=
  find?_map_devices c (c.advance h) id

theorem sameShape_synchronous (h : c.Loopless .combinational) : SameShape c (c.synchronous h) :=
  ⟨ids_map_devices c (c.advance h), rfl⟩

/-! ## Direct control -/

theorem directlyControlled_of_devices
    (h : ∀ d ∈ c.devices, d.kind = .dtype →
      ∀ t ∈ (Dependency.triggering.drivers d.logic).reduceOption,
        (c.find? t.device).any fun s => s.kind = .switch ∨ s.kind = .clock) :
    c.DirectlyControlled :=
  DirectlyDriven.of_devices (k := .triggering) h

namespace DirectlyControlled

theorem clk {ff : FlipFlop} (h : c.DirectlyControlled) (hff : c.flipFlop? id = some ff) :
    c.IsSource ff.clk :=
  h id ff hff _ (by simp)

/-- Direct control of the inputs that force a level is part of it. -/
theorem forcing (h : c.DirectlyControlled) : c.DirectlyDriven .asynchronous :=
  fun id ff hff driver hdriver => h id ff hff driver (List.mem_cons_of_mem _ hdriver)

theorem of_agreeOn_bare (h : c.DirectlyControlled) (hb : AgreeOn Logic.bare c c') :
    c'.DirectlyControlled :=
  DirectlyDriven.of_agreeOn_bare (k := .triggering) h hb

/-- Under direct control there is no loop through `SET` and `CLEAR` either. -/
theorem asynchronous (h : c.DirectlyControlled) (hl : c.Loopless .combinational) :
    c.Loopless .asynchronous :=
  h.forcing.loopless hl

end DirectlyControlled

/-! ## A round under direct control -/

section
variable {c'' : Circuit}

/-- A settled circuit that has latched holds the bits of the next state. -/
theorem preset_latch (hn : c.ids.Nodup) (hl : c.Loopless .combinational)
    (h : c.DirectlyControlled) (hs : c.settle = (true, c')) : c'.latch.preset = c.next hl := by
  have hfixed : AgreeOn Logic.fixed c c' := agreeOn_fixed_settle hs
  have hfixed' : AgreeOn Logic.fixed c c'.latch := hfixed.trans (agreeOn_fixed_latch c')
  funext id
  cases hff : c.flipFlop? id with
  | none =>
    have hff' := isNone_flipFlop?_of_agreeOn_fixed hfixed' hff
    simp only [preset, next, hff, hff']
  | some ff =>
    have hforced := h.forcing.forced?_eq hfixed' hff
    have hforced' := h.forcing.forced?_eq hfixed hff
    have hclk := (h.clk hff).read_eq hfixed
    rw [preset_eq (flipFlop?_latch (flipFlop?_settle hn h.forcing hs hff))]
    show (ff.forced? c'.latch.read).getD
      (if c'.read ff.clk && !ff.lastClk && (ff.forced? c'.read).isNone then c'.read ff.data
        else c.preset id) = _
    rw [hforced, hforced', hclk, read_settle hn hl h.forcing hs, preset_eq hff]
    simp only [next, hff, preset_eq hff, FlipFlop.forced?]
    by_cases hset : c.read ff.set <;> by_cases hclear : c.read ff.clear <;> simp [hset, hclear]

/-- What a round leaves in a flip-flop. -/
theorem flipFlop?_round {ff : FlipFlop} (hn : c.ids.Nodup) (hl : c.Loopless .combinational)
    (h : c.DirectlyControlled) (hs : c.settle = (true, c')) (hs' : c'.latch.settle = (true, c''))
    (hff : c.flipFlop? id = some ff) :
    c''.flipFlop? id = some { ff with stored := c.next hl id, lastClk := c.read ff.clk } := by
  have hfixed : AgreeOn Logic.fixed c c' := agreeOn_fixed_settle hs
  have hfixed' : AgreeOn Logic.fixed c c'.latch := hfixed.trans (agreeOn_fixed_latch c')
  have hn' : c'.latch.ids.Nodup := by
    rwa [ids_latch, (sameShape_settle hs).1]
  have hdirect := h.of_agreeOn_bare (hfixed'.coarsen Logic.bare_of_fixed_eq)
  have hlatch := flipFlop?_latch (flipFlop?_settle hn h.forcing hs hff)
  rw [flipFlop?_settle hn' hdirect.forcing hs' hlatch, preset_latch hn hl h hs]
  simp only [FlipFlop.latch, (h.clk hff).read_eq hfixed]

/-- Settling, a round of latching and settling again make up one step of the machine. -/
theorem find?_round (hn : c.ids.Nodup) (hl : c.Loopless .combinational)
    (h : c.DirectlyControlled) (hs : c.settle = (true, c')) (hs' : c'.latch.settle = (true, c''))
    (id : NameId) : c''.find? id = (c.synchronous hl).find? id := by
  have hfixed : AgreeOn Logic.fixed c c'' :=
    ((agreeOn_fixed_settle hs).trans (agreeOn_fixed_latch c')).trans (agreeOn_fixed_settle hs')
  have hbare : AgreeOn Logic.bare c c'' := hfixed.coarsen Logic.bare_of_fixed_eq
  have hn' : c'.latch.ids.Nodup := by
    rwa [ids_latch, (sameShape_settle hs).1]
  have hbits : c''.storedBit = c.next hl := by
    funext id
    cases hff : c.flipFlop? id with
    | none =>
      have hff' := isNone_flipFlop?_of_agreeOn_fixed hfixed hff
      simp only [storedBit, next, hff, hff']
    | some ff => simp only [storedBit, flipFlop?_round hn hl h hs hs' hff]
  have hread : c''.read = c.evalInput hl (c.next hl) := by
    funext driver
    rw [read_eq_eval (hbare.loopless hl) (settled_of_settle hn' hs'), hbits]
    exact evalInput_congr hfixed hl _ _ driver
  rw [find?_synchronous]
  cases hd : c.find? id with
  | none => exact hfixed.find?_eq_none hd
  | some d =>
    obtain ⟨d'', hd'', hf⟩ := hfixed.find? hd
    have hid : d''.id = d.id := (id_of_find? hd'').trans (id_of_find? hd).symm
    suffices hlogic : d''.logic = c.advance hl id d.logic by
      rw [hd'', Option.map_some, Device.mapLogic, ← hlogic, ← hid]
    cases hlogic : d.logic with
    | gate g =>
      rw [hlogic] at hf
      obtain ⟨output, hlogic''⟩ := Logic.eq_gate_of_fixed_eq hf
      have hsettled := settled_of_settle hn' hs' id d'' hd''
      rw [← hsettled, hlogic'', hread]
      rfl
    | dtype ff =>
      have hff : c.flipFlop? id = some ff := flipFlop?_eq_some_iff.2 ⟨d, hd, hlogic⟩
      have hff'' := flipFlop?_round hn hl h hs hs' hff
      rw [flipFlop?, hd'', Option.bind_some, Logic.flipFlop?_eq_some_iff] at hff''
      exact hff''
    | switch closed =>
      rw [hlogic] at hf
      exact eq_of_fixed_eq hf (Or.inl rfl)
    | clock k =>
      rw [hlogic] at hf
      exact eq_of_fixed_eq hf (Or.inr rfl)

end

/-! ## Order and stale outputs -/

theorem next_congr (hl : c.Loopless .combinational) (hl' : c'.Loopless .combinational)
    (h : c.DirectlyControlled) (he : AgreeOn Logic.essential c c') :
    c'.next hl' = c.next hl := by
  have hfixed : AgreeOn Logic.fixed c c' := he.coarsen Logic.fixed_of_essential_eq
  funext id
  have hflip := he.flipFlop? Logic.flipFlop?_of_essential_eq id
  cases hff : c.flipFlop? id with
  | none => simp only [next, hflip, hff]
  | some ff =>
    have hset : c.IsSource ff.set := h id ff hff _ (by simp)
    have hclear : c.IsSource ff.clear := h id ff hff _ (by simp)
    simp only [next, hflip, hff, hset.read_eq hfixed, hclear.read_eq hfixed,
      (h.clk hff).read_eq hfixed, preset_congr h.forcing he, evalInput_congr hfixed hl hl']

/-- The step of the machine depends neither on the order of the devices nor on the outputs that
the gates have before it. -/
theorem find?_synchronous_congr (hl : c.Loopless .combinational)
    (hl' : c'.Loopless .combinational) (h : c.DirectlyControlled)
    (he : AgreeOn Logic.essential c c') (id : NameId) :
    (c'.synchronous hl').find? id = (c.synchronous hl).find? id := by
  have hfixed : AgreeOn Logic.fixed c c' := he.coarsen Logic.fixed_of_essential_eq
  rw [find?_synchronous, find?_synchronous]
  cases hd : c.find? id with
  | none => rw [he.find?_eq_none hd, Option.map_none, Option.map_none]
  | some d =>
    obtain ⟨d', hd', hess⟩ := he.find? hd
    have hid : d'.id = d.id := (id_of_find? hd').trans (id_of_find? hd).symm
    have hinput : c'.evalInput hl' (c.next hl) = c.evalInput hl (c.next hl) :=
      funext (evalInput_congr hfixed hl hl' _)
    suffices hlogic : c'.advance hl' id d'.logic = c.advance hl id d.logic by
      rw [hd', Option.map_some, Option.map_some, Device.mapLogic, Device.mapLogic, hlogic, hid]
    cases hlogic : d.logic with
    | gate g =>
      rw [hlogic] at hess
      obtain ⟨output, hlogic'⟩ := Logic.eq_gate_of_fixed_eq (Logic.fixed_of_essential_eq hess)
      simp only [hlogic', advance, next_congr hl hl' h he, hinput]
    | dtype ff =>
      have hff : c.flipFlop? id = some ff := flipFlop?_eq_some_iff.2 ⟨d, hd, hlogic⟩
      have hlogic' : d'.logic = .dtype ff := by
        rw [← Logic.flipFlop?_eq_some_iff, Logic.flipFlop?_of_essential_eq hess, hlogic]
        rfl
      simp only [hlogic', advance, next_congr hl hl' h he, (h.clk hff).read_eq hfixed]
    | switch closed =>
      rw [hlogic] at hess
      rw [eq_of_fixed_eq (Logic.fixed_of_essential_eq hess) (Or.inl rfl)]
      rfl
    | clock k =>
      rw [hlogic] at hess
      rw [eq_of_fixed_eq (Logic.fixed_of_essential_eq hess) (Or.inr rfl)]
      rfl

/-! ## A cycle is a step -/

/-- A circuit in which the clocks have ticked takes one step of the machine. -/
theorem cycle_eq_synchronous_tick (hn : c.ids.Nodup) (hl : c.Loopless .combinational)
    (h : c.DirectlyControlled) :
    c.cycle = (.ok (), c.tick.synchronous (hl.of_bare_eq (bare_tick c))) := by
  have hn₀ : c.tick.ids.Nodup := by rwa [ids_tick]
  have hl₀ : c.tick.Loopless .combinational := hl.of_bare_eq (bare_tick c)
  have h₀ : c.tick.DirectlyControlled := h.of_agreeOn_bare (.of_bare_eq (bare_tick c))
  obtain ⟨c₁, hs⟩ := exists_settle hn₀ (h₀.asynchronous hl₀)
  have hn₁ : c₁.ids.Nodup := by rwa [(sameShape_settle hs).1]
  have hn₁' : c₁.latch.ids.Nodup := by rwa [ids_latch]
  have hfixed : AgreeOn Logic.fixed c.tick c₁.latch :=
    (agreeOn_fixed_settle hs).trans (agreeOn_fixed_latch c₁)
  have hbare : AgreeOn Logic.bare c.tick c₁.latch := hfixed.coarsen Logic.bare_of_fixed_eq
  obtain ⟨c₂, hs'⟩ := exists_settle hn₁' (hbare.loopless (h₀.asynchronous hl₀))
  have hfixed' : AgreeOn Logic.fixed c.tick c₂ := hfixed.trans (agreeOn_fixed_settle hs')
  -- The round has sampled every clock: clocks show the same level before and after it.
  have hsampled : ∀ id, c₂.Sampled id := by
    intro id d₂ hd₂ ff₂ hlogic₂
    have hff₂ : c₂.flipFlop? id = some ff₂ := flipFlop?_eq_some_iff.2 ⟨d₂, hd₂, hlogic₂⟩
    cases hff : c.tick.flipFlop? id with
    | none => rw [isNone_flipFlop?_of_agreeOn_fixed hfixed' hff] at hff₂; cases hff₂
    | some ff =>
      rw [flipFlop?_round hn₀ hl₀ h₀ hs hs' hff] at hff₂
      obtain rfl := Option.some.inj hff₂
      exact ((h₀.clk hff).read_eq hfixed').symm
  have hround : latchWithin c₁.settleBound c₁ = (.ok (), c₂) :=
    latchWithin_of_sampled hn₁ (settled_of_settle hn₀ hs) hs' hsampled c₁.lt_settleBound
  have hshape : SameShape c.tick c₂ :=
    ((sameShape_settle hs).trans (sameShape_mapLogic c₁ _)).trans (sameShape_settle hs')
  have hshape' : SameShape (c.tick.synchronous hl₀) c₂ :=
    ⟨hshape.1.trans (sameShape_synchronous hl₀).1.symm, hshape.2⟩
  have hc₂ : c₂ = c.tick.synchronous hl₀ :=
    ext_find? (by rwa [(sameShape_synchronous hl₀).1]) hshape' fun id _ =>
      find?_round hn₀ hl₀ h₀ hs hs' id
  rw [cycle, hs, ← hc₂]
  exact hround

/-- **Refinement.** A cycle of a synchronous circuit succeeds, from every state, and its effect
is that the clocks tick and the machine takes one step. All flip-flops store at once: a circuit
with the same devices in another order, or with other outputs at its gates, ends up with the same
devices. -/
theorem cycle_eq_synchronous (hc : c.Assembled) (hl : c.Loopless .combinational)
    (h : c.DirectlyControlled) :
    c.cycle = (.ok (), c.tick.synchronous (hl.of_bare_eq (bare_tick c))) ∧
      ∀ c', c'.Assembled → AgreeOn Logic.essential c c' →
        c'.cycle.1 = .ok () ∧ ∀ id, c'.cycle.2.find? id = c.cycle.2.find? id := by
  refine ⟨cycle_eq_synchronous_tick hc.nodup hl h, fun c' hc' he => ?_⟩
  have hbare : AgreeOn Logic.bare c c' :=
    he.coarsen fun hess => Logic.bare_of_fixed_eq (Logic.fixed_of_essential_eq hess)
  have htick : AgreeOn Logic.essential c.tick c'.tick := he.map Logic.essential_tick_of_eq
  have hdirect : c.tick.DirectlyControlled := h.of_agreeOn_bare (.of_bare_eq (bare_tick c))
  rw [cycle_eq_synchronous_tick hc'.nodup (hbare.loopless hl) (h.of_agreeOn_bare hbare),
    cycle_eq_synchronous_tick hc.nodup hl h]
  exact ⟨rfl, find?_synchronous_congr _ _ hdirect htick⟩

/-- A twisted ring of two flip-flops with a common clock. The inverter that closes the ring shows
the given output; it is declared first or last. -/
def twistedRing (inverterFirst output : Bool) : Circuit where
  devices :=
    let inverter : Device := ⟨⟨0⟩, .gate { kind := .nand, inputs := [some ⟨⟨2⟩, .q⟩], output }⟩
    let rest : List Device :=
      [⟨⟨1⟩, .dtype { clk := some ⟨⟨3⟩, .out⟩, data := some ⟨⟨0⟩, .out⟩ }⟩,
        ⟨⟨2⟩, .dtype { clk := some ⟨⟨3⟩, .out⟩, data := some ⟨⟨1⟩, .q⟩ }⟩,
        ⟨⟨3⟩, .clock { halfPeriod := 1 }⟩]
    if inverterFirst then inverter :: rest else rest ++ [inverter]
  passLimit := 0

theorem assembled_twistedRing (inverterFirst output : Bool) :
    (twistedRing inverterFirst output).Assembled := by
  let inverter : Assembly := .device ⟨0⟩ (.gate .nand) (some 1)
  let rest : List Assembly := [.device ⟨1⟩ .dtype none, .device ⟨2⟩ .dtype none,
    .device ⟨3⟩ .clock (some 1)]
  let wires : List Assembly :=
    [.wire ⟨⟨2⟩, .q⟩ ⟨0⟩ (.gate 1), .wire ⟨⟨0⟩, .out⟩ ⟨1⟩ .data, .wire ⟨⟨1⟩, .q⟩ ⟨2⟩ .data,
      .wire ⟨⟨3⟩, .out⟩ ⟨1⟩ .clk, .wire ⟨⟨3⟩, .out⟩ ⟨2⟩ .clk]
  cases inverterFirst with
  | true =>
    have hassembled := assembled_assemble 0 (inverter :: rest ++ wires)
    cases output <;> exact hassembled.restate (by decide +kernel)
  | false =>
    have hassembled := assembled_assemble 0 (rest ++ inverter :: wires)
    cases output <;> exact hassembled.restate (by decide +kernel)

/-- The ring takes a step of the machine, and takes the same one with the inverter declared
last and showing another output. -/
theorem twistedRing_cycle_eq_synchronous :
    ∃ hl : (twistedRing true false).Loopless .combinational,
      (twistedRing true false).Assembled ∧ (twistedRing true false).DirectlyControlled ∧
        (twistedRing true false).cycle =
          (.ok (), (twistedRing true false).tick.synchronous (hl.of_bare_eq (bare_tick _))) ∧
        ∀ id, (twistedRing false true).cycle.2.find? id =
          (twistedRing true false).cycle.2.find? id := by
  have hl : (twistedRing true false).Loopless .combinational :=
    loopless_of_drivers (fun id => if id = ⟨0⟩ then 1 else 0) (by decide)
  have hassembled : (twistedRing true false).Assembled := assembled_twistedRing true false
  have hdirect : (twistedRing true false).DirectlyControlled :=
    directlyControlled_of_devices (by decide)
  have hagree : AgreeOn Logic.essential (twistedRing true false) (twistedRing false true) := by
    rintro ⟨_ | _ | _ | _ | n⟩ <;> rfl
  obtain ⟨hcycle, hother⟩ := cycle_eq_synchronous hassembled hl hdirect
  exact ⟨hl, hassembled, hdirect, hcycle, (hother _ (assembled_twistedRing false true) hagree).2⟩

end Breadboard.Circuit
