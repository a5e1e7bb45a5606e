import Breadboard.Circuit.Cycle
import Breadboard.Probe.Basic
import Mathlib.Data.List.Basic
import Mathlib.Data.Option.Basic

/-!
# Relabelled circuits

The numbers of the devices are labels: a circuit only ever asks whether two of them are the same.
`Circuit.relabel g` puts other numbers in place of all of them, at the devices and in every driver.
If `g` keeps different numbers apart, all that happens in the relabelled circuit is what happens in
the circuit itself, with other numbers.

* `find?_relabel`, `output?_relabel`: a device is found under its new number, with the same levels.
* `cycle_relabel`: a cycle of a relabelled circuit is the relabelled cycle.
* `Probes.record_relabel`, `Probes.traces_relabel`: probes on it record the same samples.
-/
namespace Breadboard

variable {g : NameId → NameId}

/-! ## Devices -/

/-- The output with another number for its device. -/
def Terminal.relabel (g : NameId → NameId) (t : Terminal) : Terminal := ⟨g t.device, t.pin⟩

theorem Terminal.relabel_injective (hg : g.Injective) : (Terminal.relabel g).Injective := by
  rintro ⟨id, pin⟩ ⟨id', pin'⟩ h
  obtain ⟨hid, hpin⟩ := Terminal.mk.inj h
  exact congrArg₂ Terminal.mk (hg hid) hpin

namespace Logic

/-- The logic with its drivers known by other numbers. -/
def relabel (g : NameId → NameId) : Logic → Logic
  | gate x => gate { x with inputs := x.inputs.map (·.map (Terminal.relabel g)) }
  | dtype ff =>
    dtype { ff with
      clk := ff.clk.map (Terminal.relabel g)
      data := ff.data.map (Terminal.relabel g)
      set := ff.set.map (Terminal.relabel g)
      clear := ff.clear.map (Terminal.relabel g) }
  | l => l

variable {l : Logic}

theorem relabel_injective (hg : g.Injective) : (relabel g).Injective := by
  have hdriver := Option.map_injective (Terminal.relabel_injective hg)
  intro l l' h
  cases l <;> cases l' <;> simp only [relabel, reduceCtorEq] at h
  case gate.gate x x' =>
    obtain ⟨hkind, hinputs, houtput⟩ := Gate.mk.inj (gate.inj h)
    have hinputs' := List.map_injective_iff.2 hdriver hinputs
    cases x
    cases x'
    simp_all
  case dtype.dtype ff ff' =>
    obtain ⟨hclk, hdata, hset, hclear, hstored, hlast⟩ := FlipFlop.mk.inj (dtype.inj h)
    have hpins := And.intro (hdriver hclk) (And.intro (hdriver hdata)
      (And.intro (hdriver hset) (hdriver hclear)))
    cases ff
    cases ff'
    simp_all
  all_goals exact h

@[simp]
theorem outputPins_relabel : (l.relabel g).outputPins = l.outputPins := by
  cases l <;> rfl

@[simp]
theorem output?_relabel (pin : OutputPin) : (l.relabel g).output? pin = l.output? pin := by
  cases l <;> cases pin <;> rfl

@[simp]
theorem stored?_relabel : (l.relabel g).stored? = l.stored? := by
  cases l <;> rfl

theorem tick_relabel (l : Logic) : (l.relabel g).tick = l.tick.relabel g := by
  cases l <;> rfl

theorem reset_relabel (l : Logic) : (l.relabel g).reset = l.reset.relabel g := by
  cases l <;> rfl

section
variable {read read' : Option Terminal → Bool}
  (hread : ∀ driver : Option Terminal, read' (driver.map (Terminal.relabel g)) = read driver)
include hread

theorem refresh_relabel (l : Logic) : (l.relabel g).refresh read' = (l.refresh read).relabel g := by
  cases l with
  | gate x => simp [relabel, refresh, Function.comp_def, hread]
  | dtype ff => simp [relabel, refresh, FlipFlop.forced?, hread]
  | switch | clock => rfl

theorem latch_relabel (l : Logic) : (l.relabel g).latch read' = (l.latch read).relabel g := by
  cases l with
  | dtype ff => simp [relabel, latch, FlipFlop.latch, FlipFlop.latches, FlipFlop.forced?, hread]
  | gate | switch | clock => rfl

end

end Logic

namespace Device

def relabel (g : NameId → NameId) (d : Device) : Device := ⟨g d.id, d.logic.relabel g⟩

theorem relabel_injective (hg : g.Injective) : (relabel g).Injective := by
  rintro ⟨id, l⟩ ⟨id', l'⟩ h
  obtain ⟨hid, hlogic⟩ := Device.mk.inj h
  exact congrArg₂ Device.mk (hg hid) (Logic.relabel_injective hg hlogic)

theorem output?_relabel (d : Device) (pin : OutputPin) :
    (d.relabel g).output? pin = d.output? pin :=
  Logic.output?_relabel pin

theorem hasOutput_relabel (d : Device) (pin : OutputPin) :
    (d.relabel g).hasOutput pin = d.hasOutput pin := by
  simp [relabel, hasOutput]

theorem terminals_relabel (d : Device) :
    (d.relabel g).terminals = d.terminals.map (Terminal.relabel g) := by
  simp [relabel, terminals, Terminal.relabel]

end Device

/-! ## Circuits -/

namespace Circuit

/-- The circuit with other numbers for its devices. -/
def relabel (g : NameId → NameId) (c : Circuit) : Circuit :=
  { c with devices := c.devices.map (Device.relabel g) }

variable {c c' : Circuit}

theorem relabel_injective (hg : g.Injective) : (relabel g).Injective := by
  rintro ⟨ds, limit⟩ ⟨ds', limit'⟩ h
  obtain ⟨hdevices, hlimit⟩ := Circuit.mk.inj h
  have hinj := List.map_injective_iff.2 (Device.relabel_injective hg)
  exact congrArg₂ Circuit.mk (hinj hdevices) hlimit

@[simp]
theorem ids_relabel (c : Circuit) : (c.relabel g).ids = c.ids.map g := by
  simp [relabel, ids, Device.relabel, Function.comp_def]

@[simp]
theorem settleBound_relabel (c : Circuit) : (c.relabel g).settleBound = c.settleBound := by
  simp [settleBound, size, relabel]

@[simp]
theorem stored_relabel (c : Circuit) : (c.relabel g).stored = c.stored := by
  simp [stored, relabel, Device.relabel, Function.comp_def, List.filterMap_map]

theorem levels_relabel (c : Circuit) : (c.relabel g).levels = c.levels := by
  have houtput (d : Device) : (d.relabel g).output? = d.output? :=
    funext d.output?_relabel
  simp only [levels, relabel, List.flatMap_map, houtput]
  simp only [Device.relabel, Logic.outputPins_relabel]

theorem terminals_relabel (c : Circuit) :
    (c.relabel g).terminals = c.terminals.map (Terminal.relabel g) := by
  simp only [terminals, relabel, List.flatMap_map, List.map_flatMap, Device.terminals_relabel]

theorem mapLogic_relabel {f f' : Logic → Logic}
    (h : ∀ l : Logic, f' (l.relabel g) = (f l).relabel g) (c : Circuit) :
    (c.relabel g).mapLogic f' = (c.mapLogic f).relabel g := by
  simp [mapLogic, relabel, Device.relabel, Device.mapLogic, h]

theorem tick_relabel (c : Circuit) : (c.relabel g).tick = c.tick.relabel g :=
  mapLogic_relabel Logic.tick_relabel c

theorem reset_relabel (c : Circuit) : (c.relabel g).reset = c.reset.relabel g :=
  mapLogic_relabel Logic.reset_relabel c

section
variable (hg : g.Injective)
include hg

theorem find?_relabel (c : Circuit) (id : NameId) :
    (c.relabel g).find? (g id) = (c.find? id).map (Device.relabel g) := by
  have hid (d : Device) : ((d.relabel g).id == g id) = (d.id == id) := by
    rw [Bool.eq_iff_iff, beq_iff_eq, beq_iff_eq, Device.relabel, hg.eq_iff]
  simp only [find?, relabel, List.find?_map, Function.comp_def, hid]

theorem hasTerminal_relabel (c : Circuit) (t : Terminal) :
    (c.relabel g).hasTerminal (t.relabel g) = c.hasTerminal t := by
  simp only [hasTerminal, Terminal.relabel, find?_relabel hg, Option.any_map,
    Device.hasOutput_relabel]

theorem output?_relabel (c : Circuit) (t : Terminal) :
    (c.relabel g).output? (t.relabel g) = c.output? t := by
  simp only [output?, Terminal.relabel, find?_relabel hg, Option.bind_map, Function.comp_def,
    Device.output?_relabel]

theorem read_relabel (c : Circuit) (driver : Option Terminal) :
    (c.relabel g).read (driver.map (Terminal.relabel g)) = c.read driver := by
  simp only [read, Option.bind_map, Function.comp_def, output?_relabel hg]

theorem modify_relabel {f f' : Logic → Logic}
    (h : ∀ l : Logic, f' (l.relabel g) = (f l).relabel g) (c : Circuit) (id : NameId) :
    (c.relabel g).modify (g id) f' = (c.modify id f).relabel g := by
  simp only [modify, relabel, List.map_map, Circuit.mk.injEq, and_true]
  refine List.map_congr_left fun d _ => ?_
  simp only [Function.comp_apply, Device.relabel, hg.eq_iff]
  split
  · simp only [Device.mapLogic, h]
  · rfl

/-! ## Cycles -/

theorem refresh_relabel (c : Circuit) (id : NameId) :
    (c.relabel g).refresh (g id) = (c.refresh id).relabel g :=
  modify_relabel hg (Logic.refresh_relabel (read_relabel hg c)) c id

theorem pass_relabel (c : Circuit) : (c.relabel g).pass = c.pass.relabel g := by
  have hfold (ids : List NameId) (c : Circuit) :
      (ids.map g).foldl refresh (c.relabel g) = (ids.foldl refresh c).relabel g := by
    induction ids generalizing c with
    | nil => rfl
    | cons id ids ih => rw [List.map_cons, List.foldl_cons, refresh_relabel hg, ih, List.foldl_cons]
  rw [pass, ids_relabel, hfold, pass]

/-- A pass changes nothing in one of the circuits exactly if it changes nothing in the other. -/
theorem settleWithin_relabel (n : Nat) (c : Circuit) :
    settleWithin n (c.relabel g) = ((settleWithin n c).1, (settleWithin n c).2.relabel g) := by
  induction n generalizing c with
  | zero => rfl
  | succ n ih =>
    simp only [settleWithin, pass_relabel hg, (relabel_injective hg).eq_iff]
    split
    · rfl
    · exact ih _

theorem settle_relabel (c : Circuit) :
    (c.relabel g).settle = (c.settle.1, c.settle.2.relabel g) := by
  rw [settle, settleBound_relabel, settleWithin_relabel hg, settle]

theorem latch_relabel (c : Circuit) : (c.relabel g).latch = c.latch.relabel g :=
  mapLogic_relabel (Logic.latch_relabel (read_relabel hg c)) c

theorem latchWithin_relabel (n : Nat) (c : Circuit) :
    latchWithin n (c.relabel g) = ((latchWithin n c).1, (latchWithin n c).2.relabel g) := by
  induction n generalizing c with
  | zero => simp only [latchWithin, settleBound_relabel]
  | succ n ih =>
    simp only [latchWithin, latch_relabel hg, stored_relabel, settle_relabel hg]
    split
    · rfl
    · rcases c.latch.settle with ⟨_ | _, settled⟩
      · simp only [settleBound_relabel]
      · exact ih settled

theorem cycle_relabel (c : Circuit) :
    (c.relabel g).cycle = (c.cycle.1, c.cycle.2.relabel g) := by
  simp only [cycle, tick_relabel, settle_relabel hg]
  rcases c.tick.settle with ⟨_ | _, settled⟩
  · simp only [settleBound_relabel]
  · simp only [settleBound_relabel, latchWithin_relabel hg]

/-! ## Switches -/

/-- A switch is set under its new number, and what is no switch is refused for the same reason. -/
theorem setSwitch_relabel (c : Circuit) (id : NameId) (closed : Bool) :
    (∃ c', c.setSwitch id closed = .ok c' ∧
        (c.relabel g).setSwitch (g id) closed = .ok (c'.relabel g)) ∨
      (c.setSwitch id closed = .error (.absent id) ∧
        (c.relabel g).setSwitch (g id) closed = .error (.absent (g id))) ∨
      (c.setSwitch id closed = .error (.notSwitch id) ∧
        (c.relabel g).setSwitch (g id) closed = .error (.notSwitch (g id))) := by
  simp only [setSwitch, find?_relabel hg]
  cases c.find? id with
  | none => exact .inr (.inl ⟨rfl, rfl⟩)
  | some d =>
    simp only [Option.map_some, Device.relabel]
    cases d.logic with
    | switch =>
      have hset (_ : Logic) : Logic.switch closed = (Logic.switch closed).relabel g := rfl
      exact .inl ⟨_, rfl, congrArg Except.ok (modify_relabel hg hset c id)⟩
    | gate | clock | dtype => exact .inr (.inr ⟨rfl, rfl⟩)

end

end Circuit

/-! ## Probes -/

namespace Probes

/-- The probes with other numbers for the devices that they are on. -/
def relabel (g : NameId → NameId) (p : Probes) : Probes where
  probes := p.probes.map fun probe => { probe with terminal := probe.terminal.relabel g }

theorem append_relabel (p : Probes) (t : Terminal) (trace : Trace) :
    (⟨p.probes ++ [⟨t, trace⟩]⟩ : Probes).relabel g =
      ⟨(p.relabel g).probes ++ [⟨t.relabel g, trace⟩]⟩ := by
  simp [relabel]

theorem clear_relabel (p : Probes) : (p.relabel g).clear = p.clear.relabel g := by
  simp [clear, relabel]

section
variable (hg : g.Injective)
include hg

theorem trace?_relabel (p : Probes) (t : Terminal) :
    (p.relabel g).trace? (t.relabel g) = p.trace? t := by
  have hterminal (other : Terminal) : (other.relabel g == t.relabel g) = (other == t) := by
    rw [Bool.eq_iff_iff, beq_iff_eq, beq_iff_eq, (Terminal.relabel_injective hg).eq_iff]
  simp only [trace?, relabel, List.find?_map, Function.comp_def, hterminal, Option.map_map]

theorem contains_relabel (p : Probes) (t : Terminal) :
    (p.relabel g).contains (t.relabel g) = p.contains t := by
  rw [contains_eq_isSome_trace?, contains_eq_isSome_trace?, trace?_relabel hg]

theorem record_relabel (p : Probes) (c : Circuit) :
    (p.relabel g).record (c.relabel g) = (p.record c).relabel g := by
  simp [record, relabel, sample, Circuit.output?_relabel hg]

theorem remove_relabel (p : Probes) (t : Terminal) :
    (p.relabel g).remove (t.relabel g) = (p.remove t).relabel g := by
  have hterminal (other : Terminal) : (other.relabel g != t.relabel g) = (other != t) := by
    rw [Bool.eq_iff_iff, bne_iff_ne, bne_iff_ne, (Terminal.relabel_injective hg).ne_iff]
  simp only [remove, relabel, List.filter_map, Function.comp_def, hterminal]

theorem traces_relabel (p : Probes) (c : Circuit) :
    (p.relabel g).traces (c.relabel g) =
      (p.traces c).map fun (t, trace) => (t.relabel g, trace) := by
  simp only [traces, Circuit.terminals_relabel, List.filterMap_map, List.map_filterMap]
  refine List.filterMap_congr fun t _ => ?_
  simp only [Function.comp_apply, trace?_relabel hg, Option.map_map, Function.comp_def]

end

end Probes

end Breadboard
