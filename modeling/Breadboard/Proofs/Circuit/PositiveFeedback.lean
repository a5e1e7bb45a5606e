import Breadboard.Proofs.Circuit.Latching
import Breadboard.Proofs.Circuit.WellFormed
import Mathlib.Dynamics.FixedPoints.Basic
import Mathlib.Order.Bounds.Defs

/-!
# Positive feedback

The output of an `AND` or an `OR` never falls when an input rises. In a circuit of such gates,
switches and clocks, whatever its feedback, the levels that the gates require of each other are a
monotone function of the levels that they have. Gates that are refreshed in place, one after the
other, from all low, then rise and never fall, and stop rising at the least levels that meet all
requirements.

* `refresh_withOutputs`: refreshing a gate puts the level in place that is required of it.
* `Rising.update`: the levels stay below what is required and below every solution.
* `settleWithin_of_rising`: each pass but the last one raises a gate, so there are passes enough.
* `cycle_of_outputs_low`: a cycle from all low comes to rest at the least solution.
-/
namespace Breadboard

namespace GateKind

theorem evaluate_mono {α : Type} {g : GateKind} (hg : g = .and ∨ g = .or) {inputs : List α}
    {read read' : α → Bool} (h : ∀ x ∈ inputs, read x ≤ read' x) :
    g.evaluate (inputs.map read) ≤ g.evaluate (inputs.map read') := by
  simp only [Bool.le_iff_imp] at h ⊢
  rcases hg with rfl | rfl
  · simp only [evaluate, List.all_map, List.all_eq_true]
    exact fun hall x hx => h x hx (hall x hx)
  · simp only [evaluate, List.any_map, List.any_eq_true]
    exact fun ⟨x, hx, hany⟩ => ⟨x, hx, h x hx hany⟩

end GateKind

namespace Logic

/-- A switch, a clock, or a gate whose output never falls when an input rises. -/
def Positive : Logic → Prop
  | gate g => g.kind = .and ∨ g.kind = .or
  | switch _ | clock _ => True
  | dtype _ => False

instance : DecidablePred Positive
  | gate g => inferInstanceAs (Decidable (g.kind = .and ∨ g.kind = .or))
  | switch _ | clock _ => inferInstanceAs (Decidable True)
  | dtype _ => inferInstanceAs (Decidable False)

/-- The part with another level at its output if it is a gate. -/
def withOutput (output : Bool) : Logic → Logic
  | gate g => gate { g with output }
  | l => l

theorem Positive.tick {l : Logic} (h : l.Positive) : l.tick.Positive := by
  cases l <;> exact h

theorem Positive.withOutput {l : Logic} (h : l.Positive) (output : Bool) :
    (l.withOutput output).Positive := by
  cases l <;> exact h

/-- The output of a part that is not a gate stays. -/
theorem output?_withOutput (output : Bool) (l : Logic) (pin : OutputPin) :
    (l.withOutput output).output? pin =
      match l, pin with
      | gate _, .out => some output
      | _, _ => l.output? pin := by
  cases l <;> cases pin <;> rfl

end Logic

namespace Circuit

variable {c : Circuit} {v v' w : NameId → Bool} {id x : NameId}

/-! ## What gates require of each other -/

/-- The circuit with other levels at the outputs of its gates. -/
def withOutputs (c : Circuit) (v : NameId → Bool) : Circuit :=
  { c with devices := c.devices.map fun d => d.mapLogic (.withOutput (v d.id)) }

/-- The level that is required of a gate if the outputs of the gates have the given levels. Other
devices count as low. -/
def required (c : Circuit) (v : NameId → Bool) (id : NameId) : Bool :=
  match c.find? id with
  | some ⟨_, .gate g⟩ => g.kind.evaluate (g.inputs.map (c.withOutputs v).read)
  | _ => false

theorem required_gate {g : Gate} (h : c.find? id = some ⟨id, .gate g⟩) (v : NameId → Bool) :
    c.required v id = g.kind.evaluate (g.inputs.map (c.withOutputs v).read) := by
  rw [required, h]

theorem required_of_ne_gate (h : ∀ g, c.find? id ≠ some ⟨id, .gate g⟩) (v : NameId → Bool) :
    c.required v id = false := by
  rw [required]
  split
  · rename_i other g hd
    obtain rfl : other = id := id_of_find? hd
    exact absurd hd (h g)
  · rfl

theorem find?_withOutputs (c : Circuit) (v : NameId → Bool) (id : NameId) :
    (c.withOutputs v).find? id = (c.find? id).map (·.mapLogic (.withOutput (v id))) :=
  find?_map_devices c (fun id => .withOutput (v id)) id

@[simp]
theorem ids_withOutputs (c : Circuit) (v : NameId → Bool) : (c.withOutputs v).ids = c.ids :=
  ids_map_devices c fun id => .withOutput (v id)

theorem withOutputs_eq_self (h : ∀ d ∈ c.devices, d.logic.withOutput (v d.id) = d.logic) :
    c.withOutputs v = c := by
  have hdevices : c.devices.map (fun d => d.mapLogic (.withOutput (v d.id))) = c.devices := by
    refine (List.map_congr_left fun d hd => ?_).trans (List.map_id _)
    rw [Device.mapLogic, h d hd, id]
  rw [withOutputs, hdevices]

theorem read_withOutputs_mono (h : v ≤ v') (driver : Option Terminal) :
    (c.withOutputs v).read driver ≤ (c.withOutputs v').read driver := by
  cases driver with
  | none => exact le_rfl
  | some t =>
    simp only [read, Option.bind_some, output?, find?_withOutputs, Device.output?]
    cases c.find? t.device with
    | none => exact le_rfl
    | some d =>
      simp only [Option.map_some, Option.bind_some, Device.mapLogic, Logic.output?_withOutput]
      split
      · exact h t.device
      · exact le_rfl

theorem required_mono (hc : c.Every Logic.Positive) : Monotone c.required := by
  intro v v' h id
  by_cases hgate : ∃ g, c.find? id = some ⟨id, .gate g⟩
  · obtain ⟨g, hd⟩ := hgate
    have hpositive : g.kind = .and ∨ g.kind = .or := hc _ (List.mem_of_find?_eq_some hd)
    rw [required_gate hd, required_gate hd]
    exact GateKind.evaluate_mono hpositive fun driver _ => read_withOutputs_mono h driver
  · rw [not_exists] at hgate
    rw [required_of_ne_gate hgate, required_of_ne_gate hgate]

theorem mem_ids_of_required (h : c.required v id = true) : id ∈ c.ids := by
  by_contra hid
  rw [required, find?_eq_none_iff.2 hid] at h
  cases h

/-- Refreshing a gate puts the level in place that is required of it. -/
theorem refresh_withOutputs (hn : c.ids.Nodup) (hc : c.Every Logic.Positive) (v : NameId → Bool)
    (x : NameId) :
    (c.withOutputs v).refresh x = c.withOutputs (Function.update v x (c.required v x)) := by
  simp only [refresh, modify, withOutputs, List.map_map, Circuit.mk.injEq, and_true]
  refine List.map_congr_left fun d hd => ?_
  obtain ⟨id, l⟩ := d
  simp only [Function.comp_apply, Device.mapLogic]
  by_cases hid : id = x
  · subst hid
    have hfind : c.find? id = some ⟨id, l⟩ := (find?_eq_some_iff hn).2 ⟨hd, rfl⟩
    have hpositive : l.Positive := hc _ hd
    rw [if_pos rfl, Function.update_self, required, hfind]
    cases l with
    | dtype => exact hpositive.elim
    | gate | switch | clock => rfl
  · rw [if_neg hid, Function.update_of_ne hid]

/-- After a pass that changes nothing every gate shows what is required of it. -/
theorem required_eq_of_pass (hn : c.ids.Nodup) (hv : v ≤ c.required v)
    (h : (c.withOutputs v).pass = c.withOutputs v) : c.required v = v := by
  have hn' : (c.withOutputs v).ids.Nodup := by rwa [ids_withOutputs]
  funext id
  by_cases hgate : ∃ g, c.find? id = some ⟨id, .gate g⟩
  · obtain ⟨g, hd⟩ := hgate
    have hid : id ∈ (c.withOutputs v).ids := by
      rw [ids_withOutputs]
      exact List.mem_map.2 ⟨_, List.mem_of_find?_eq_some hd, rfl⟩
    have hsettled := (pass_eq_self_iff hn').1 h id hid _
      ((find?_withOutputs c v id).trans (congrArg _ hd))
    simp only [Device.mapLogic, Logic.withOutput, Logic.refresh, Logic.gate.injEq] at hsettled
    rw [required_gate hd]
    exact congrArg Gate.output hsettled
  · rw [not_exists] at hgate
    have hle := hv id
    rw [required_of_ne_gate hgate] at hle ⊢
    exact le_antisymm (Bool.false_le _) hle

/-! ## Rising to the least solution -/

/-- Levels on the way up: no gate is above what is required of it, nor above what it is in any
solution. -/
structure Rising (c : Circuit) (v : NameId → Bool) : Prop where
  le_required : v ≤ c.required v
  le_solution : ∀ w ∈ Function.fixedPoints c.required, v ≤ w

theorem rising_bot (c : Circuit) : c.Rising fun _ => false :=
  ⟨fun _ => Bool.false_le _, fun _ _ _ => Bool.false_le _⟩

/-- Raising a gate to what is required of it is a step on the way up. -/
theorem Rising.update (hc : c.Every Logic.Positive) (h : c.Rising v) (x : NameId) :
    v ≤ Function.update v x (c.required v x) ∧
      c.Rising (Function.update v x (c.required v x)) := by
  have hle : v ≤ Function.update v x (c.required v x) :=
    le_update_iff.2 ⟨h.le_required x, fun _ _ => le_rfl⟩
  refine ⟨hle, update_le_iff.2 ⟨?_, fun id _ => ?_⟩,
    fun w hw => update_le_iff.2 ⟨?_, fun id _ => ?_⟩⟩
  · exact required_mono hc hle x
  · exact (h.le_required id).trans (required_mono hc hle id)
  · have hsolution : c.required w = w := hw
    exact (required_mono hc (h.le_solution w hw) x).trans_eq (congrFun hsolution x)
  · exact h.le_solution w hw id

/-- A pass is made of such steps. -/
theorem Rising.pass (hn : c.ids.Nodup) (hc : c.Every Logic.Positive) (h : c.Rising v) :
    ∃ v', (c.withOutputs v).pass = c.withOutputs v' ∧ v ≤ v' ∧ c.Rising v' := by
  refine pass_preserves (P := fun e => ∃ v', e = c.withOutputs v' ∧ v ≤ v' ∧ c.Rising v')
    (fun e x he => ?_) ⟨v, rfl, le_rfl, h⟩
  obtain ⟨v', rfl, hle, hrising⟩ := he
  obtain ⟨hle', hrising'⟩ := hrising.update hc x
  exact ⟨_, refresh_withOutputs hn hc v' x, hle.trans hle', hrising'⟩

/-- The devices that are high. -/
def high (c : Circuit) (v : NameId → Bool) : Finset NameId :=
  c.ids.toFinset.filter fun id => v id = true

theorem card_high_le (c : Circuit) (v : NameId → Bool) : (c.high v).card ≤ c.size := by
  rw [size_eq_length_ids]
  exact (Finset.card_filter_le _ _).trans (List.toFinset_card_le c.ids)

/-- On the way up only devices of the circuit rise. -/
theorem Rising.card_high_lt (h : c.Rising v') (hle : v ≤ v') (hne : v ≠ v') :
    (c.high v).card < (c.high v').card := by
  obtain ⟨-, id, hid⟩ := Pi.lt_def.1 (lt_of_le_of_ne hle hne)
  obtain ⟨hlow, hhigh⟩ := Bool.lt_iff.1 hid
  have hmem : id ∈ c.ids := mem_ids_of_required (Bool.le_iff_imp.1 (h.le_required id) hhigh)
  refine Finset.card_lt_card (Finset.ssubset_iff_of_subset ?_ |>.2 ⟨id, ?_, ?_⟩)
  · exact Finset.monotone_filter_right _ fun id _ h => Bool.le_iff_imp.1 (hle id) h
  · exact Finset.mem_filter.2 ⟨List.mem_toFinset.2 hmem, hhigh⟩
  · simp [high, hlow]

/-- Each pass but the last one raises a gate, and there are no more gates than devices. -/
theorem settleWithin_of_rising {n : Nat} (hn : c.ids.Nodup) (hc : c.Every Logic.Positive)
    (h : c.Rising v) (hbound : c.size < n + (c.high v).card) :
    ∃ w, settleWithin n (c.withOutputs v) = (true, c.withOutputs w) ∧
      IsLeast (Function.fixedPoints c.required) w := by
  induction n generalizing v with
  | zero =>
    have := card_high_le c v
    omega
  | succ n ih =>
    obtain ⟨v', hpass, hle, hrising⟩ := h.pass hn hc
    simp only [settleWithin]
    split
    · rename_i hsame
      have hsolution : c.required v = v := required_eq_of_pass hn h.le_required hsame
      exact ⟨v, by rw [hsame], hsolution, h.le_solution⟩
    · rename_i hchanged
      have hne : v ≠ v' := fun heq => hchanged (by rw [hpass, heq])
      have := hrising.card_high_lt hle hne
      rw [hpass]
      exact ih hrising (by omega)

/-! ## A cycle -/

theorem sampled_of_positive (hc : c.Every Logic.Positive) (id : NameId) : c.Sampled id := by
  intro d hd ff hff
  have hpositive := hc d (List.mem_of_find?_eq_some hd)
  rw [hff] at hpositive
  exact hpositive.elim

/-- A cycle from all gates low comes to rest at the least solution, and changes nothing but the
clocks and the gates. -/
theorem cycle_of_outputs_low (hn : c.ids.Nodup) (hc : c.Every Logic.Positive)
    (hlow : c.Every fun l => l.withOutput false = l) :
    ∃ v, IsLeast (Function.fixedPoints c.tick.required) v ∧
      c.cycle = (.ok (), c.tick.withOutputs v) := by
  have hn₀ : c.tick.ids.Nodup := by rwa [ids_tick]
  have hc₀ : c.tick.Every Logic.Positive := hc.mapLogic Logic.Positive.tick
  have hlow₀ : c.tick.withOutputs (fun _ => false) = c.tick :=
    withOutputs_eq_self (hlow.mapLogic fun {l} h => by cases l <;> first | exact h | rfl)
  obtain ⟨v, hsettle, hleast⟩ := settleWithin_of_rising hn₀ hc₀ (rising_bot c.tick)
    (Nat.lt_add_right _ c.tick.lt_settleBound)
  rw [hlow₀] at hsettle
  have hpositive : (c.tick.withOutputs v).Every Logic.Positive := by
    intro e he
    obtain ⟨d, hd, rfl⟩ := List.mem_map.1 he
    exact (hc₀ d hd).withOutput _
  obtain ⟨n, hbound⟩ := (c.tick.withOutputs v).exists_settleBound_eq
  refine ⟨v, hleast, ?_⟩
  rw [cycle, show c.tick.settle = _ from hsettle]
  simp only [hbound]
  exact latchWithin_eq_self (by rwa [ids_withOutputs]) (sampled_of_positive hpositive)

end Circuit

end Breadboard
