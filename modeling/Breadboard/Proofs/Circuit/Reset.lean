import Breadboard.Proofs.Circuit.WellFormed

/-!
# Resetting

A reset wipes all that simulation leaves in a circuit. It keeps the wiring and the positions of
the switches, and nothing else.

* `reset_cycle`: what a cycle changes is wiped, whether it comes to rest or not.
* `reset_congr`: a reset makes circuits of the same wiring equal if their switches agree.
* `reset_setSwitch`: a switch may as well be set after a reset as before it.
* `reset_addDevice`, `reset_connect`: a circuit is put together as a reset leaves it.
-/
namespace Breadboard

namespace Logic

def closed? : Logic → Option Bool
  | switch closed => some closed
  | _ => none

theorem reset_tick (l : Logic) : l.tick.reset = l.reset := by
  cases l with
  | clock c => simp only [tick, Clock.tick]; split <;> rfl
  | gate | switch | dtype => rfl

theorem reset_refresh (read : Option Terminal → Bool) (l : Logic) :
    (l.refresh read).reset = l.reset := by
  cases l <;> rfl

theorem reset_latch (read : Option Terminal → Bool) (l : Logic) :
    (l.latch read).reset = l.reset := by
  cases l <;> rfl

theorem reset_reset (l : Logic) : l.reset.reset = l.reset := by
  cases l <;> rfl

theorem reset_drive (l : Logic) (pin : InputPin) (source : Terminal) :
    (l.drive pin source).reset = l.reset.drive pin source := by
  cases l with
  | gate g =>
    cases pin with
    | gate n => cases n <;> rfl
    | clk | data | set | clear => rfl
  | dtype ff => cases pin <;> rfl
  | switch | clock => rfl

theorem PowerOn.reset_eq {l : Logic} (h : l.PowerOn) : l.reset = l := by
  cases h <;> rfl

/-- Nothing but the wiring and the position of a switch is left of a part. -/
theorem reset_congr {l l' : Logic} (hbare : l'.bare = l.bare) (hclosed : l'.closed? = l.closed?) :
    l'.reset = l.reset := by
  cases l with
  | switch closed =>
    cases l' with
    | switch closed' =>
      obtain rfl : closed' = closed := by simpa [closed?] using hclosed
      rfl
    | gate | clock | dtype => cases hbare
  | gate | clock | dtype =>
    cases l' with
    | switch => cases hbare
    | gate | clock | dtype => exact hbare

end Logic

namespace Circuit

variable {c c' : Circuit}

theorem reset_eq_self_iff : c.reset = c ↔ c.Every fun l => l.reset = l := by
  have hdevices : c.reset = c ↔ c.devices.map (·.mapLogic Logic.reset) = c.devices.map id := by
    rw [List.map_id]
    exact ⟨congrArg Circuit.devices, fun h => by rw [reset, mapLogic, h]⟩
  rw [hdevices, List.map_inj_left]
  refine forall₂_congr fun d _ => ?_
  obtain ⟨n, l⟩ := d
  simp [Device.mapLogic]

theorem reset_reset (c : Circuit) : c.reset.reset = c.reset :=
  mapLogic_mapLogic_of_eq Logic.reset_reset c

/-- What a cycle changes is wiped, whether it comes to rest or not. -/
theorem reset_cycle (c : Circuit) : c.cycle.2.reset = c.reset :=
  cycle_preserves (P := fun c' => c'.reset = c.reset)
    (fun c' _ h => (mapLogic_modify_of_eq fun d _ _ => d.logic.reset_refresh c'.read).trans h)
    (fun c' h => (mapLogic_mapLogic_of_eq (Logic.reset_latch c'.read) c').trans h)
    (fun c' h => (mapLogic_mapLogic_of_eq Logic.reset_tick c').trans h) rfl

/-- A reset makes circuits of the same wiring equal if their switches agree. -/
theorem reset_congr (hn : c.ids.Nodup) (hbare : c'.bare = c.bare)
    (hclosed : AgreeOn Logic.closed? c c') : c'.reset = c.reset := by
  have hs : SameShape c.reset c'.reset :=
    sameShape_of_bare_eq (by rw [bare_reset, bare_reset, hbare])
  refine ext_find? ?_ hs fun id _ => ?_
  · rw [reset, ids_mapLogic]
    exact hn
  rw [reset, reset, find?_mapLogic, find?_mapLogic]
  cases hd : c.find? id with
  | none => rw [hclosed.find?_eq_none hd]
  | some d =>
    obtain ⟨d', hd', hl⟩ := (AgreeOn.of_bare_eq hbare).find? hd
    obtain ⟨e, he, hposition⟩ := hclosed.find? hd
    obtain rfl : e = d' := Option.some.inj (he.symm.trans hd')
    have hid : e.id = d.id := (id_of_find? he).trans (id_of_find? hd).symm
    rw [hd', Option.map_some, Option.map_some, Device.mapLogic, Device.mapLogic,
      Logic.reset_congr hl hposition, hid]

/-! ## Setting switches -/

theorem mapLogic_modify_comm {f g : Logic → Logic} (hfg : ∀ l, g (f l) = f (g l)) (c : Circuit)
    (id : NameId) : (c.modify id f).mapLogic g = (c.mapLogic g).modify id f := by
  simp only [mapLogic, modify, List.map_map, Circuit.mk.injEq, and_true]
  refine List.map_congr_left fun d _ => ?_
  by_cases hid : d.id = id <;> simp [Device.mapLogic, hid, hfg]

/-- A switch may as well be set after a reset as before it. -/
theorem reset_setSwitch (c : Circuit) (id : NameId) (closed : Bool) :
    c.reset.setSwitch id closed = (c.setSwitch id closed).map reset := by
  unfold Circuit.setSwitch
  rw [show c.reset.find? id = _ from find?_mapLogic c _ id]
  cases c.find? id with
  | none => rfl
  | some d =>
    cases hl : d.logic with
    | switch old =>
      simp only [Option.map_some, Device.mapLogic, hl, Logic.reset, Except.map]
      have hcomm : (c.modify id fun _ => .switch closed).reset =
          c.reset.modify id fun _ => .switch closed :=
        mapLogic_modify_comm (f := fun _ => .switch closed) (g := Logic.reset) (fun _ => rfl) c id
      rw [hcomm]
    | gate | clock | dtype => simp [Device.mapLogic, hl, Logic.reset, Except.map]

/-! ## Putting a circuit together -/

theorem reset_addDevice {id : NameId} {kind : DeviceKind} {parameter : Option UInt32}
    (hadd : c.addDevice id kind parameter = .ok c') (h : c.reset = c) : c'.reset = c' := by
  obtain ⟨-, l, hl, rfl⟩ := addDevice_eq_ok_iff.1 hadd
  refine reset_eq_self_iff.2 fun d hd => ?_
  rcases List.mem_append.1 hd with hd | hd
  · exact reset_eq_self_iff.1 h d hd
  · rw [List.mem_singleton.1 hd]
    exact (Logic.powerOn_of_ofKind hl).reset_eq

theorem reset_connect {source : Terminal} {target : NameId} {pin : InputPin}
    (hconnect : c.connect source target pin = .ok c') (h : c.reset = c) : c'.reset = c' := by
  have hcomm : (c.modify target (·.drive pin source)).reset =
      c.reset.modify target (·.drive pin source) :=
    mapLogic_modify_comm (fun l => l.reset_drive pin source) c target
  rw [eq_modify_of_connect hconnect, hcomm, h]

end Circuit

end Breadboard
