import Breadboard.Proofs.Circuit.WellFormed

/-!
# Input pins

A part knows its inputs in three ways: it lists them with their drivers, it looks up the driver of
one, and it puts a driver in place at one. The three agree, for every kind of part.

* `mem_inputs_iff`: an input that is listed is found, with the same driver.
* `inputs_drive`: a driver that is put in place shows in the list at its own input alone.
* `Circuit.differsAt_modify`: replacing what is in one device leaves the list of devices as it is
  before it and behind it.
-/
namespace Breadboard

namespace Logic

/-! ## Listing and looking up -/

/-- The inputs of a part in their natural order. -/
def inputPins : Logic → List InputPin
  | gate g => (List.range g.inputs.length).map fun i => .gate (i + 1)
  | dtype _ => [.clk, .data, .set, .clear]
  | _ => []

theorem map_fst_inputs (l : Logic) : l.inputs.map (·.1) = l.inputPins := by
  cases l with
  | gate g =>
    refine List.ext_getElem (by simp [inputs, inputPins]) fun i _ _ => ?_
    simp [inputs, inputPins]
  | switch | clock | dtype => rfl

theorem nodup_inputPins (l : Logic) : l.inputPins.Nodup := by
  cases l with
  | gate g => exact List.nodup_range.map fun i j h => by simpa using h
  | dtype ff => simp [inputPins]
  | switch | clock => exact List.nodup_nil

theorem mem_inputs_iff {l : Logic} {pin : InputPin} {driver : Option Terminal} :
    (pin, driver) ∈ l.inputs ↔ l.input? pin = some driver := by
  cases l with
  | gate g =>
    simp only [inputs, List.mem_mapIdx, Prod.mk.injEq]
    cases pin with
    | gate n =>
      cases n with
      | zero => simp [input?]
      | succ n =>
        simp only [input?, InputPin.gate.injEq, List.getElem?_eq_some_iff]
        constructor
        · rintro ⟨i, hi, hpin, hdriver⟩
          obtain rfl : i = n := by omega
          exact ⟨hi, hdriver⟩
        · rintro ⟨hi, hdriver⟩
          exact ⟨n, hi, rfl, hdriver⟩
    | clk | data | set | clear => simp [input?]
  | dtype ff => cases pin <;> simp [inputs, input?, eq_comm]
  | switch | clock => simp [inputs, input?]

theorem isSome_input?_iff {l : Logic} {pin : InputPin} :
    (l.input? pin).isSome ↔ pin ∈ l.inputPins := by
  rw [← map_fst_inputs, Option.isSome_iff_exists, List.mem_map]
  constructor
  · rintro ⟨driver, h⟩
    exact ⟨(pin, driver), mem_inputs_iff.2 h, rfl⟩
  · rintro ⟨⟨_, driver⟩, h, rfl⟩
    exact ⟨driver, mem_inputs_iff.1 h⟩

/-! ## Putting a driver in place -/

/-- The part with all its drivers taken off. -/
def unwired : Logic → Logic
  | gate g => gate { g with inputs := g.inputs.map fun _ => none }
  | dtype ff => dtype { ff with clk := none, data := none, set := none, clear := none }
  | l => l

theorem inputPins_unwired (l : Logic) : l.unwired.inputPins = l.inputPins := by
  cases l with
  | gate g => simp [unwired, inputPins]
  | dtype | switch | clock => rfl

@[simp]
theorem unwired_drive (l : Logic) (pin : InputPin) (source : Terminal) :
    (l.drive pin source).unwired = l.unwired := by
  cases l with
  | gate g =>
    cases pin with
    | gate n =>
      cases n with
      | zero => rfl
      | succ n => simp [drive, unwired, List.map_const']
    | clk | data | set | clear => rfl
  | dtype ff => cases pin <;> rfl
  | switch | clock => rfl

theorem input?_drive (l : Logic) (pin other : InputPin) (source : Terminal) :
    (l.drive pin source).input? other =
      if other = pin then (l.input? pin).map fun _ => some source else l.input? other := by
  cases l with
  | gate g =>
    cases pin with
    | gate n =>
      cases n with
      | zero => cases other <;> simp [drive, input?]; rintro rfl; rfl
      | succ n =>
        cases other with
        | gate k =>
          cases k with
          | zero => simp [drive, input?]
          | succ k =>
            simp only [drive, input?, InputPin.gate.injEq, Nat.add_right_cancel_iff,
              List.getElem?_set]
            grind
        | clk | data | set | clear => simp [drive, input?]
    | clk | data | set | clear => cases other <;> simp [drive, input?]
  | dtype ff => cases pin <;> cases other <;> simp [drive, input?]
  | switch | clock => simp [drive, input?]

theorem inputPins_drive (l : Logic) (pin : InputPin) (source : Terminal) :
    (l.drive pin source).inputPins = l.inputPins := by
  rw [← inputPins_unwired, unwired_drive, inputPins_unwired]

/-- The list of inputs says no more than what is looked up at each of them. -/
theorem inputs_eq_map (l : Logic) :
    l.inputs = l.inputPins.map fun pin => (pin, (l.input? pin).getD none) := by
  rw [← map_fst_inputs, List.map_map]
  refine (List.map_id _).symm.trans (List.map_congr_left fun ⟨pin, driver⟩ h => ?_)
  simp [mem_inputs_iff.1 h]

/-- A driver that is put in place shows in the list at its own input alone. -/
theorem inputs_drive (l : Logic) (pin : InputPin) (source : Terminal) :
    (l.drive pin source).inputs =
      l.inputs.map fun (other, driver) => (other, if other = pin then some source else driver) := by
  rw [inputs_eq_map, inputs_eq_map, inputPins_drive, List.map_map]
  refine List.map_congr_left fun other hother => ?_
  obtain ⟨driver, hdriver⟩ := Option.isSome_iff_exists.1 (isSome_input?_iff.2 hother)
  rw [input?_drive]
  by_cases h : other = pin
  · subst h
    simp [hdriver]
  · simp [h]

end Logic

/-! ## One device of a circuit -/

namespace Circuit

/-- The two circuits differ at most in what is in one device, and there as `R` says. -/
def DiffersAt (id : NameId) (R : Logic → Logic → Prop) (c c' : Circuit) : Prop :=
  ∃ before l l' behind, c.devices = before ++ ⟨id, l⟩ :: behind ∧
    c' = { c with devices := before ++ ⟨id, l'⟩ :: behind } ∧ R l l'

/-- Replacing what is in one device leaves the list of devices as it is before it and behind
it. -/
theorem differsAt_modify {c : Circuit} (hn : c.ids.Nodup) {id : NameId} {d : Device}
    {f : Logic → Logic} {R : Logic → Logic → Prop} (hd : c.find? id = some d)
    (hR : R d.logic (f d.logic)) : c.DiffersAt id R (c.modify id f) := by
  obtain ⟨hmem, rfl⟩ := (find?_eq_some_iff hn).1 hd
  obtain ⟨before, behind, hdevices⟩ := List.append_of_mem hmem
  rw [ids, hdevices, List.map_append, List.map_cons] at hn
  have hother := (List.nodup_middle.1 hn).notMem
  rw [List.mem_append, not_or] at hother
  refine ⟨before, d.logic, f d.logic, behind, hdevices, ?_, hR⟩
  rw [modify, hdevices, List.map_append, List.map_cons, map_modify_of_notMem f hother.1,
    map_modify_of_notMem f hother.2, if_pos rfl]
  rfl

end Circuit

end Breadboard
