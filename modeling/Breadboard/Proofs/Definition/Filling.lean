import Breadboard.Proofs.Circuit.Links
import Breadboard.Proofs.Definition.Grammar

/-!
# Filling inputs

Several outputs are put in place at consecutive inputs of a part, as far as these are open. `Filled`
says what becomes of the part: it depends on the inputs that are met alone, and everything else in
the part stays.

* `Filled.cons`: filling one input, and then those behind it.
* `Filled.input?_behind`: the inputs behind are not met.
* `Circuit.modify_congr`: what replaces the logic of a device matters only there.
-/
namespace Breadboard

/-! ## Parts -/

namespace Logic

variable {l l' : Logic} {first pin : InputPin} {index i j : Nat} {output : Terminal}
  {outputs : List Terminal}

/-- How many sources a part has room for from an input on: a gate for as many as it has inputs left,
a flip-flop for a single one. -/
def room (l : Logic) (first : InputPin) : Nat :=
  match l, first with
  | gate g, .gate n => g.inputs.length + 1 - n
  | _, _ => 1

/-- A part takes as many sources as it has room for. -/
theorem takes_iff_lt_room (hfirst : (l.input? first).isSome) :
    l.Takes first (index + 1) ↔ index < l.room first := by
  cases l with
  | gate g =>
    cases first with
    | gate n =>
      have hpos : 1 ≤ n := by
        cases n with
        | zero => cases hfirst
        | succ n => omega
      simp only [Takes, room]
      omega
    | clk | data | set | clear => cases hfirst
  | dtype ff =>
    cases first with
    | gate n => cases hfirst
    | clk | data | set | clear => simp only [Takes, room, Nat.add_eq_right, Nat.lt_one_iff]
  | switch | clock => cases hfirst

/-- Within the room, every source has an input of its own. -/
theorem plus_inj_of_lt_room (hfirst : (l.input? first).isSome) (hi : i < l.room first)
    (hj : j < l.room first) (h : first.plus i = first.plus j) : i = j := by
  cases l with
  | gate g =>
    cases first with
    | gate n =>
      simp only [InputPin.plus, InputPin.gate.injEq] at h
      omega
    | clk | data | set | clear => cases hfirst
  | dtype | switch | clock =>
    have hone : i < 1 ∧ j < 1 := ⟨hi, hj⟩
    omega

theorem room_unwired (l : Logic) (first : InputPin) : l.unwired.room first = l.room first := by
  cases l with
  | gate g => cases first <;> simp [unwired, room]
  | dtype | switch | clock => rfl

theorem gateInputs_unwired (id : NameId) (l : Logic) :
    (Device.mk id l.unwired).gateInputs = (Device.mk id l).gateInputs := by
  cases l with
  | gate g => simp [unwired, Device.gateInputs]
  | dtype | switch | clock => rfl

/-- The second part is the first one with outputs put in place at consecutive inputs, from the one
at `index` behind `first` on. An input that is open has the output for a driver afterwards; one that
is driven keeps its own. -/
structure Filled (first : InputPin) (index : Nat) (outputs : List Terminal) (l l' : Logic) :
    Prop where
  unwired : l'.unwired = l.unwired
  drivers : ∀ i output, outputs[i]? = some output →
    l'.input? (first.plus (index + i)) =
      some (some ((l.driver? (first.plus (index + i))).getD output))
  others : ∀ pin, (∀ i < outputs.length, pin ≠ first.plus (index + i)) →
    l'.input? pin = l.input? pin

namespace Filled

theorem nil (first : InputPin) (index : Nat) (l : Logic) : Filled first index [] l l :=
  ⟨rfl, by simp, fun _ _ => rfl⟩

theorem of_open (h : l.input? (first.plus index) = some none) :
    Filled first index [output] l (l.drive (first.plus index) output) where
  unwired := unwired_drive l _ output
  drivers i source hsource := by
    obtain ⟨rfl, rfl⟩ : i = 0 ∧ output = source := by
      cases i <;> simp_all
    rw [Nat.add_zero, input?_drive, if_pos rfl, driver?, h]
    rfl
  others pin hpin := by
    have hne : pin ≠ first.plus index := hpin 0 Nat.zero_lt_one
    rw [input?_drive, if_neg hne]

theorem of_driven {driver : Terminal} (h : l.input? (first.plus index) = some (some driver)) :
    Filled first index [output] l l where
  unwired := rfl
  drivers i source hsource := by
    obtain ⟨rfl, rfl⟩ : i = 0 ∧ output = source := by
      cases i <;> simp_all
    rw [Nat.add_zero, driver?, h]
    rfl
  others _ _ := rfl

theorem room_eq (h : Filled first index outputs l l') : l'.room first = l.room first := by
  rw [← room_unwired, h.unwired, room_unwired]

theorem isSome_input? (h : Filled first index outputs l l') (pin : InputPin) :
    (l'.input? pin).isSome ↔ (l.input? pin).isSome := by
  rw [isSome_input?_iff, isSome_input?_iff, ← inputPins_unwired, h.unwired, inputPins_unwired]

theorem gateInputs_eq (h : Filled first index outputs l l') (id : NameId) :
    (Device.mk id l').gateInputs = (Device.mk id l).gateInputs := by
  rw [← gateInputs_unwired, h.unwired, gateInputs_unwired]

/-- Outputs that are put in place do not meet the inputs behind them. -/
theorem input?_behind (h : Filled first index outputs l l') (hfirst : (l.input? first).isSome)
    (hi : index + outputs.length ≤ i) (hroom : i < l.room first) :
    l'.input? (first.plus i) = l.input? (first.plus i) := by
  refine h.others _ fun j hj he => ?_
  have := plus_inj_of_lt_room hfirst hroom (by omega) he
  omega

theorem cons {l₁ : Logic} (hfirst : (l.input? first).isSome)
    (hroom : index + outputs.length < l.room first) (h : Filled first index [output] l l₁)
    (h' : Filled first (index + 1) outputs l₁ l') :
    Filled first index (output :: outputs) l l' := by
  have hne : ∀ i < outputs.length, first.plus (index + 1 + i) ≠ first.plus index := by
    intro i hi he
    have := plus_inj_of_lt_room hfirst (by omega) (by omega) he
    omega
  have hkeep : ∀ i < outputs.length,
      l₁.input? (first.plus (index + 1 + i)) = l.input? (first.plus (index + 1 + i)) := by
    intro i hi
    exact h.input?_behind hfirst (Nat.le_add_right _ i) (by omega)
  refine ⟨h'.unwired.trans h.unwired, fun i source hsource => ?_, fun pin hpin => ?_⟩
  · cases i with
    | zero =>
      have hothers := h'.others (first.plus index) fun i hi => (hne i hi).symm
      rw [Nat.add_zero, hothers]
      exact h.drivers 0 source hsource
    | succ i =>
      rw [List.getElem?_cons_succ] at hsource
      have hi : i < outputs.length := (List.getElem?_eq_some_iff.1 hsource).1
      rw [show index + (i + 1) = index + 1 + i by omega, h'.drivers i source hsource, driver?,
        driver?, hkeep i hi]
  · rw [h'.others pin fun i hi => ?_, h.others pin fun i hi => ?_]
    · obtain rfl : i = 0 := Nat.lt_one_iff.1 hi
      exact hpin 0 (Nat.succ_pos _)
    · have := hpin (i + 1) (Nat.succ_lt_succ hi)
      rwa [show index + (i + 1) = index + 1 + i by omega] at this

end Filled

end Logic

/-! ## Circuits -/

namespace Circuit

variable {c : Circuit} {id : NameId} {d : Device}

theorem modify_modify (c : Circuit) (id : NameId) (f g : Logic → Logic) :
    (c.modify id f).modify id g = c.modify id (g ∘ f) := by
  simp only [modify, List.map_map]
  congr 1
  refine List.map_congr_left fun d _ => ?_
  by_cases h : d.id = id <;> simp [h, Device.mapLogic]

theorem modify_congr {f g : Logic → Logic} (hn : c.ids.Nodup) (hd : c.find? id = some d)
    (h : f d.logic = g d.logic) : c.modify id f = c.modify id g := by
  obtain ⟨hmem, hid⟩ := (find?_eq_some_iff hn).1 hd
  unfold modify
  congr 1
  refine List.map_congr_left fun e he => ?_
  by_cases hsame : e.id = id
  · obtain rfl : e = d := List.inj_on_of_nodup_map hn he hmem (hsame.trans hid.symm)
    rw [if_pos hsame, if_pos hsame, Device.mapLogic, Device.mapLogic, h]
  · rw [if_neg hsame, if_neg hsame]

theorem modify_id (c : Circuit) (id : NameId) : c.modify id (fun l => l) = c := by
  have hsame (d : Device) : (if d.id = id then d.mapLogic (fun l => l) else d) = d := ite_self d
  simp only [modify, hsame, List.map_id']

theorem modify_logic (hn : c.ids.Nodup) (hd : c.find? id = some d) :
    c.modify id (fun _ => d.logic) = c :=
  (modify_congr (g := fun l => l) hn hd rfl).trans (c.modify_id id)

end Circuit

end Breadboard
