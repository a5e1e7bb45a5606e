import Breadboard.Proofs.Circuit.Forcing
import Mathlib.Data.List.Find

/-!
# Order of declaration

Devices are refreshed in place and in the order of declaration, so circuits that list the same
devices in different orders go through different levels and take different numbers of passes.
Where gates have no loop among themselves and every `SET` and `CLEAR` is open or driven directly
by a clock or a switch, they meet again whenever they have settled. Hence their rounds of latching
go in step, and end in the same way: clocks may come from gates and from other flip-flops, and
loops through flip-flops may keep the rounds from ending at all.

* `InStep.settle`: circuits in step both settle, and are in step again.
* `InStep.latchWithin`: their rounds of latching go in step.
* `cycle_congr_of_perm`: a cycle does not depend on the order of the devices.
-/
namespace Breadboard.Circuit

variable {c c' : Circuit}

/-! ## The same devices in another order -/

theorem find?_eq_of_perm (hn : c.ids.Nodup) (h : c'.devices.Perm c.devices) (id : NameId) :
    c'.find? id = c.find? id := by
  refine (List.find?_eq_find?_of_perm h.symm ?_).symm
  rintro d ⟨hd, hid⟩ e ⟨he, hid'⟩
  rw [beq_iff_eq] at hid hid'
  exact List.inj_on_of_nodup_map hn hd he (hid.trans hid'.symm)

/-- The two circuits have the same devices under the same numbers, and settling them has a single
outcome that does not depend on the order of the devices. -/
structure InStep (c c' : Circuit) : Prop where
  nodup : c.ids.Nodup
  nodup' : c'.ids.Nodup
  bound : c'.settleBound = c.settleBound
  loopless : c.Loopless .combinational
  driven : c.DirectlyDriven .asynchronous
  find? : ∀ id, c'.find? id = c.find? id

namespace InStep

theorem agreeOn {α : Type} (h : InStep c c') (f : Logic → α) : AgreeOn f c c' :=
  fun id => by rw [h.find? id]

theorem read_eq (h : InStep c c') : c'.read = c.read :=
  funext fun _ => read_congr fun t _ => output?_congr (h.find? t.device)

theorem mem_devices_iff (h : InStep c c') {d : Device} : d ∈ c'.devices ↔ d ∈ c.devices := by
  have hfind : c.find? d.id = some d ↔ d ∈ c.devices ∧ d.id = d.id := find?_eq_some_iff h.nodup
  have hfind' : c'.find? d.id = some d ↔ d ∈ c'.devices ∧ d.id = d.id :=
    find?_eq_some_iff h.nodup'
  rw [h.find?, hfind] at hfind'
  simpa using hfind'.symm

/-- Circuits stay in step when every part is changed in the same way and the wiring is kept. -/
theorem mapLogic {f : Logic → Logic} (h : InStep c c') (hf : ∀ l, (f l).bare = l.bare) :
    InStep (c.mapLogic f) (c'.mapLogic f) where
  nodup := by rw [ids_mapLogic]; exact h.nodup
  nodup' := by rw [ids_mapLogic]; exact h.nodup'
  bound := by
    rw [(sameShape_mapLogic c' f).settleBound_eq, (sameShape_mapLogic c f).settleBound_eq, h.bound]
  loopless := h.loopless.of_bare_eq (bare_mapLogic hf c)
  driven := h.driven.of_agreeOn_bare (.of_bare_eq (bare_mapLogic hf c))
  find? id := by rw [find?_mapLogic, find?_mapLogic, h.find?]

theorem tick (h : InStep c c') : InStep c.tick c'.tick := h.mapLogic Logic.bare_tick

theorem latch (h : InStep c c') : InStep c.latch c'.latch := by
  have hlatch : c'.latch = c'.mapLogic (·.latch c.read) := by rw [Circuit.latch, h.read_eq]
  rw [hlatch]
  exact h.mapLogic (Logic.bare_latch c.read)

theorem stored_latch_eq_iff (h : InStep c c') :
    c'.latch.stored = c'.stored ↔ c.latch.stored = c.stored := by
  rw [Circuit.stored_latch_eq_iff, Circuit.stored_latch_eq_iff, h.read_eq]
  exact forall_congr' fun d => by rw [h.mem_devices_iff]

/-- Circuits in step both settle. They may take different numbers of passes, but are in step
again in the end. -/
theorem settle (h : InStep c c') :
    ∃ e e', c.settle = (true, e) ∧ c'.settle = (true, e') ∧ InStep e e' := by
  have hasync : c.Loopless .asynchronous := h.driven.loopless h.loopless
  obtain ⟨e, hs⟩ := exists_settle h.nodup hasync
  obtain ⟨e', hs'⟩ := exists_settle h.nodup' ((h.agreeOn Logic.bare).loopless hasync)
  have hshape : SameShape c e := sameShape_settle hs
  have hshape' : SameShape c' e' := sameShape_settle hs'
  have hbare : AgreeOn Logic.bare c e :=
    (agreeOn_fixed_settle hs).coarsen Logic.bare_of_fixed_eq
  exact ⟨e, e', hs, hs', {
    nodup := by rw [hshape.1]; exact h.nodup
    nodup' := by rw [hshape'.1]; exact h.nodup'
    bound := by rw [hshape'.settleBound_eq, hshape.settleBound_eq, h.bound]
    loopless := hbare.loopless h.loopless
    driven := h.driven.of_agreeOn_bare hbare
    find? := find?_settle_congr h.nodup h.nodup' h.loopless h.driven (h.agreeOn _) hs hs' }⟩

/-- Rounds of latching go in step: after each of them the devices are the same, and either both
circuits have come to rest or none of them. -/
theorem latchWithin {n : Nat} (h : InStep c c') :
    (Circuit.latchWithin n c').1 = (Circuit.latchWithin n c).1 ∧
      ∀ id, (Circuit.latchWithin n c').2.find? id = (Circuit.latchWithin n c).2.find? id := by
  induction n generalizing c c' with
  | zero => exact ⟨by simp only [Circuit.latchWithin, h.bound], h.find?⟩
  | succ n ih =>
    simp only [Circuit.latchWithin, h.stored_latch_eq_iff]
    split
    · exact ⟨rfl, h.latch.find?⟩
    · obtain ⟨e, e', hs, hs', hstep⟩ := h.latch.settle
      simp only [hs, hs']
      exact ih hstep

theorem cycle (h : InStep c c') :
    c'.cycle.1 = c.cycle.1 ∧ ∀ id, c'.cycle.2.find? id = c.cycle.2.find? id := by
  obtain ⟨e, e', hs, hs', hstep⟩ := h.tick.settle
  rw [Circuit.cycle, Circuit.cycle, hs, hs']
  simp only [hstep.bound]
  exact hstep.latchWithin

end InStep

/-- **Order of declaration.** Circuits with the same limit that list the same devices, in the same
state, in different orders do the same in a cycle: both come to rest or both do not, in the same
way, and every device ends up in the same state. -/
theorem cycle_congr_of_perm (hc : c.Assembled) (hl : c.Loopless .combinational)
    (hd : c.DirectlyDriven .asynchronous) (hperm : c'.devices.Perm c.devices)
    (hlimit : c'.passLimit = c.passLimit) :
    c'.cycle.1 = c.cycle.1 ∧ ∀ id, c'.cycle.2.find? id = c.cycle.2.find? id := by
  have hids : c'.ids.Perm c.ids := hperm.map Device.id
  have hstep : InStep c c' :=
    { nodup := hc.nodup
      nodup' := hids.nodup_iff.2 hc.nodup
      bound := by rw [settleBound, settleBound, hlimit, size, size, hperm.length_eq]
      loopless := hl
      driven := hd
      find? := find?_eq_of_perm hc.nodup hperm }
  exact hstep.cycle

/-- Two flip-flops that clock each other through gates, so that each bit stored calls for the
next one and the bits run through a Gray code for ever. The gates are declared first or last. -/
def grayRing (gatesFirst first second : Bool) : Circuit where
  devices :=
    let differ := first ^^ second
    let gates : List Device :=
      [⟨⟨0⟩, .gate
          { kind := .xor, inputs := [some ⟨⟨2⟩, .q⟩, some ⟨⟨3⟩, .q⟩], output := differ }⟩,
        ⟨⟨1⟩, .gate { kind := .nand, inputs := [some ⟨⟨0⟩, .out⟩], output := !differ }⟩]
    let flipFlops : List Device :=
      [⟨⟨2⟩, .dtype
          { clk := some ⟨⟨1⟩, .out⟩, data := some ⟨⟨2⟩, .qbar⟩, stored := first,
            lastClk := differ }⟩,
        ⟨⟨3⟩, .dtype
          { clk := some ⟨⟨0⟩, .out⟩, data := some ⟨⟨3⟩, .qbar⟩, stored := second,
            lastClk := !differ }⟩]
    if gatesFirst then gates ++ flipFlops else flipFlops ++ gates.reverse
  passLimit := 0

theorem assembled_grayRing (first second : Bool) : (grayRing true first second).Assembled := by
  let steps : List Assembly :=
    [.device ⟨0⟩ (.gate .xor) none, .device ⟨1⟩ (.gate .nand) (some 1), .device ⟨2⟩ .dtype none,
      .device ⟨3⟩ .dtype none, .wire ⟨⟨2⟩, .q⟩ ⟨0⟩ (.gate 1), .wire ⟨⟨3⟩, .q⟩ ⟨0⟩ (.gate 2),
      .wire ⟨⟨0⟩, .out⟩ ⟨1⟩ (.gate 1), .wire ⟨⟨1⟩, .out⟩ ⟨2⟩ .clk, .wire ⟨⟨2⟩, .qbar⟩ ⟨2⟩ .data,
      .wire ⟨⟨0⟩, .out⟩ ⟨3⟩ .clk, .wire ⟨⟨3⟩, .qbar⟩ ⟨3⟩ .data]
  exact (assembled_assemble 0 steps).restate (by rfl)

/-- A round moves the bits on by one step of the code. -/
theorem round_grayRing (first second : Bool) :
    (grayRing true first second).latch.stored ≠ (grayRing true first second).stored ∧
      (grayRing true first second).latch.settle = (true, grayRing true (!second) first) := by
  cases first <;> cases second <;> exact ⟨by decide, by decide +kernel⟩

/-- However many rounds are granted, the ring does not come to rest. -/
theorem latchWithin_grayRing (n : Nat) (first second : Bool) :
    (latchWithin n (grayRing true first second)).1 = .error (.flipFlops 5) := by
  induction n generalizing first second with
  | zero => rfl
  | succ n ih =>
    obtain ⟨hstored, hsettle⟩ := round_grayRing first second
    rw [latchWithin, if_neg hstored, hsettle]
    exact ih _ _

/-- In neither order do the flip-flops come to rest, and both orders stop at the same bits. -/
theorem grayRing_cycle_congr :
    (grayRing true false true).Assembled ∧ (grayRing true false true).Loopless .combinational ∧
      (grayRing true false true).DirectlyDriven .asynchronous ∧
      (grayRing false false true).devices.Perm (grayRing true false true).devices ∧
      (grayRing false false true).ids ≠ (grayRing true false true).ids ∧
      (grayRing true false true).cycle.1 = .error (.flipFlops 5) ∧
      (grayRing false false true).cycle.1 = .error (.flipFlops 5) ∧
      ∀ id, (grayRing false false true).cycle.2.find? id =
        (grayRing true false true).cycle.2.find? id := by
  have hassembled := assembled_grayRing false true
  have hl : (grayRing true false true).Loopless .combinational :=
    loopless_of_drivers (fun id => if id = ⟨1⟩ then 2 else if id = ⟨0⟩ then 1 else 0) (by decide)
  have hd : (grayRing true false true).DirectlyDriven .asynchronous := .of_devices (by decide)
  have hperm : (grayRing false false true).devices.Perm (grayRing true false true).devices :=
    List.perm_append_comm.trans ((List.reverse_perm _).append_right _)
  have hsettle : (grayRing true false true).tick.settle = (true, grayRing true false true) := by
    decide +kernel
  have hcycle : (grayRing true false true).cycle.1 = .error (.flipFlops 5) := by
    rw [cycle, hsettle]
    exact latchWithin_grayRing _ _ _
  obtain ⟨hresult, hdevices⟩ := cycle_congr_of_perm hassembled hl hd hperm rfl
  exact ⟨hassembled, hl, hd, hperm, by decide, hcycle, hresult.trans hcycle, hdevices⟩

end Breadboard.Circuit
