import Breadboard.Circuit.Cycle
import Mathlib.Data.List.Nodup
import Mathlib.Data.List.ReduceOption
import Mathlib.Logic.Relation

/-!
# Wiring and state

What a device holds falls into its wiring (kind, number, drivers, half-period), which is fixed
when the circuit is put together, and its state (outputs, switch position, clock phase, stored
bit, sampled clock), which the simulation changes. `Circuit.bare` wipes the state.

A circuit is `Assembled` when it can be put together with `addDevice` and `connect`, in any
order, and left in any state whatever. This is the domain of all statements about cycles.

* `Assembled.nodup`: no two devices of an assembled circuit have the same number.
* `bare_cycle`: a cycle keeps the wiring.
* `Assembled.cycle`: what a cycle leaves behind is assembled again.

Circuits that list their devices in different orders are compared with `Circuit.AgreeOn f`: they
agree on `f` of what is in each device.

`Circuit.Feeds` is the dependency graph that the statements about feedback refer to: which
device drives an input of which other one, where `Dependency` says which inputs count.
-/
namespace Breadboard

/-! ## Wiring -/

/-- The part with its state wiped. -/
def Logic.bare : Logic → Logic
  | gate g => gate { g with output := false }
  | switch _ => switch false
  | clock c => clock { c with counter := 0, output := false }
  | dtype ff => dtype { ff with stored := false, lastClk := false }

namespace Logic

@[simp]
theorem bare_tick (l : Logic) : l.tick.bare = l.bare := by
  cases l with
  | clock c => simp only [tick, Clock.tick]; split <;> rfl
  | _ => rfl

@[simp]
theorem bare_refresh (read : Option Terminal → Bool) (l : Logic) :
    (l.refresh read).bare = l.bare := by
  cases l <;> rfl

@[simp]
theorem bare_latch (read : Option Terminal → Bool) (l : Logic) : (l.latch read).bare = l.bare := by
  cases l <;> rfl

@[simp]
theorem bare_reset (l : Logic) : l.reset.bare = l.bare := by
  cases l <;> rfl

end Logic

namespace Circuit

def bare (c : Circuit) : Circuit := c.mapLogic Logic.bare

/-- A change that a view does not see, seen through it. -/
theorem mapLogic_mapLogic_of_eq {f g : Logic → Logic} (hf : ∀ l, g (f l) = g l) (c : Circuit) :
    (c.mapLogic f).mapLogic g = c.mapLogic g := by
  simp only [mapLogic, List.map_map, Circuit.mk.injEq, and_true]
  refine List.map_congr_left fun d _ => ?_
  simp [Device.mapLogic, hf]

theorem mapLogic_modify_of_eq {f g : Logic → Logic} {c : Circuit} {id : NameId}
    (hf : ∀ d ∈ c.devices, d.id = id → g (f d.logic) = g d.logic) :
    (c.modify id f).mapLogic g = c.mapLogic g := by
  simp only [mapLogic, modify, List.map_map, Circuit.mk.injEq, and_true]
  refine List.map_congr_left fun d hd => ?_
  simp only [Function.comp_apply]
  split
  · simp [Device.mapLogic, hf d hd ‹_›]
  · rfl

theorem bare_mapLogic {f : Logic → Logic} (hf : ∀ l, (f l).bare = l.bare) (c : Circuit) :
    (c.mapLogic f).bare = c.bare :=
  mapLogic_mapLogic_of_eq hf c

theorem sameShape_of_bare_eq {c c' : Circuit} (h : c'.bare = c.bare) : SameShape c c' := by
  have hlimit : c'.bare.passLimit = c.bare.passLimit := congrArg _ h
  refine ⟨?_, hlimit⟩
  rw [← ids_mapLogic c' Logic.bare, ← ids_mapLogic c Logic.bare]
  exact congrArg ids h

@[simp]
theorem bare_tick (c : Circuit) : c.tick.bare = c.bare := bare_mapLogic Logic.bare_tick c

@[simp]
theorem bare_refresh (c : Circuit) (id : NameId) : (c.refresh id).bare = c.bare :=
  mapLogic_modify_of_eq fun d _ _ => d.logic.bare_refresh c.read

@[simp]
theorem bare_latch (c : Circuit) : c.latch.bare = c.bare := bare_mapLogic (Logic.bare_latch _) c

@[simp]
theorem bare_reset (c : Circuit) : c.reset.bare = c.bare := bare_mapLogic Logic.bare_reset c

@[simp]
theorem bare_pass (c : Circuit) : c.pass.bare = c.bare :=
  pass_preserves (P := fun c' => c'.bare = c.bare)
    (fun c' id h => (bare_refresh c' id).trans h) rfl

@[simp]
theorem bare_settle (c : Circuit) : c.settle.2.bare = c.bare :=
  settleWithin_preserves (P := fun c' => c'.bare = c.bare)
    (fun c' id h => (bare_refresh c' id).trans h) _ rfl

theorem bare_cycle (c : Circuit) : c.cycle.2.bare = c.bare :=
  cycle_preserves (P := fun c' => c'.bare = c.bare) (fun c' id h => (bare_refresh c' id).trans h)
    (fun c' h => (bare_latch c').trans h) (fun c' h => (bare_tick c').trans h) rfl

/-! ## Numbers -/

@[simp]
theorem ids_tick (c : Circuit) : c.tick.ids = c.ids := ids_mapLogic c _

@[simp]
theorem ids_refresh (c : Circuit) (id : NameId) : (c.refresh id).ids = c.ids := ids_modify c id _

@[simp]
theorem ids_pass (c : Circuit) : c.pass.ids = c.ids := (sameShape_pass c).1

@[simp]
theorem ids_settle (c : Circuit) : c.settle.2.ids = c.ids := (sameShape_settleWithin _ c).1

@[simp]
theorem ids_latch (c : Circuit) : c.latch.ids = c.ids := ids_mapLogic c _

/-! ## Assembled circuits -/

/-- The circuits that can be put together from parts, in any state. -/
inductive Assembled : Circuit → Prop
  | empty (passLimit : Nat) : Assembled (.empty passLimit)
  | addDevice {c c' : Circuit} {id : NameId} {kind : DeviceKind} {parameter : Option UInt32} :
      Assembled c → c.addDevice id kind parameter = .ok c' → Assembled c'
  | connect {c c' : Circuit} {source : Terminal} {target : NameId} {pin : InputPin} :
      Assembled c → c.connect source target pin = .ok c' → Assembled c'
  /-- The same wiring in another state. -/
  | restate {c c' : Circuit} : Assembled c → c'.bare = c.bare → Assembled c'

theorem addDevice_eq_ok_iff {c c' : Circuit} {id : NameId} {kind : DeviceKind}
    {parameter : Option UInt32} :
    c.addDevice id kind parameter = .ok c' ↔
      id ∉ c.ids ∧ ∃ l, Logic.ofKind kind parameter = .ok l ∧
        c' = { c with devices := c.devices ++ [⟨id, l⟩] } := by
  rw [← contains_iff_mem_ids, Circuit.addDevice]
  by_cases hid : c.contains id
  · simp [hid]
  · cases hl : Logic.ofKind kind parameter <;> simp [hid, eq_comm]

theorem ids_addDevice {c c' : Circuit} {id : NameId} {kind : DeviceKind}
    {parameter : Option UInt32} (h : c.addDevice id kind parameter = .ok c') :
    c'.ids = c.ids ++ [id] ∧ id ∉ c.ids := by
  obtain ⟨hnew, l, -, rfl⟩ := addDevice_eq_ok_iff.1 h
  exact ⟨by simp [ids], hnew⟩

/-- A connection is made exactly if the output exists and the input exists and is open. It changes
one device: the driver is put in place there. -/
theorem connect_eq_ok_iff {c c' : Circuit} {source : Terminal} {target : NameId}
    {pin : InputPin} :
    c.connect source target pin = .ok c' ↔
      c.hasTerminal source = true ∧
        (∃ d, c.find? target = some d ∧ d.input? pin = some none) ∧
        c' = c.modify target (·.drive pin source) := by
  unfold Circuit.connect hasTerminal
  cases c.find? source.device with
  | none => simp
  | some driver =>
    by_cases hout : driver.hasOutput source.pin
    · cases c.find? target with
      | none => simp [hout]
      | some driven =>
        obtain hin | hin | ⟨t, hin⟩ : driven.input? pin = none ∨ driven.input? pin = some none ∨
            ∃ t, driven.input? pin = some (some t) := by
          rcases driven.input? pin with _ | _ | t <;> simp
        all_goals simp [hout, hin, eq_comm]
    · simp [hout]

theorem eq_modify_of_connect {c c' : Circuit} {source : Terminal} {target : NameId}
    {pin : InputPin} (h : c.connect source target pin = .ok c') :
    c' = c.modify target (·.drive pin source) :=
  (connect_eq_ok_iff.1 h).2.2

theorem setSwitch_eq_ok_iff {c c' : Circuit} {id : NameId} {closed : Bool} :
    c.setSwitch id closed = .ok c' ↔
      (∃ d old, c.find? id = some d ∧ d.logic = .switch old) ∧
        c' = c.modify id fun _ => .switch closed := by
  unfold Circuit.setSwitch
  cases c.find? id with
  | none => simp
  | some d => cases hl : d.logic <;> simp [hl, eq_comm]

namespace Assembled

variable {c : Circuit}

theorem nodup (h : c.Assembled) : c.ids.Nodup := by
  induction h with
  | empty => exact List.nodup_nil
  | addDevice _ hadd ih =>
    obtain ⟨hids, hnew⟩ := ids_addDevice hadd
    rw [hids, List.nodup_append]
    refine ⟨ih, List.nodup_singleton _, fun a ha b hb => ?_⟩
    rw [List.mem_singleton.1 hb]
    exact fun he => hnew (he ▸ ha)
  | connect _ hcon ih => rwa [eq_modify_of_connect hcon, ids_modify]
  | restate _ hbare ih => rwa [(sameShape_of_bare_eq hbare).1]

theorem cycle (h : c.Assembled) : c.cycle.2.Assembled := h.restate (bare_cycle c)

end Assembled

/-- One step of putting a circuit together. -/
inductive Assembly where
  | device (id : NameId) (kind : DeviceKind) (parameter : Option UInt32)
  | wire (source : Terminal) (target : NameId) (pin : InputPin)

/-- Takes a step. One that is refused changes nothing. -/
def Assembly.apply (c : Circuit) : Assembly → Circuit
  | device id kind parameter =>
    match c.addDevice id kind parameter with
    | .ok c' => c'
    | .error _ => c
  | wire source target pin =>
    match c.connect source target pin with
    | .ok c' => c'
    | .error _ => c

/-- The circuit that a list of steps puts together. -/
def assemble (passLimit : Nat) (steps : List Assembly) : Circuit :=
  steps.foldl Assembly.apply (.empty passLimit)

theorem Assembled.apply {c : Circuit} (h : c.Assembled) (step : Assembly) :
    (step.apply c).Assembled := by
  cases step with
  | device id kind parameter =>
    cases hadd : c.addDevice id kind parameter with
    | ok c' => simpa only [Assembly.apply, hadd] using h.addDevice hadd
    | error e => simpa only [Assembly.apply, hadd] using h
  | wire source target pin =>
    cases hcon : c.connect source target pin with
    | ok c' => simpa only [Assembly.apply, hcon] using h.connect hcon
    | error e => simpa only [Assembly.apply, hcon] using h

theorem assembled_assemble (passLimit : Nat) (steps : List Assembly) :
    (assemble passLimit steps).Assembled := by
  have hfold : ∀ c : Circuit, c.Assembled → (steps.foldl Assembly.apply c).Assembled := by
    induction steps with
    | nil => exact fun _ h => h
    | cons step steps ih => exact fun c h => ih _ (h.apply step)
  exact hfold _ (.empty passLimit)

/-! ## The devices of a circuit -/

theorem find?_eq_some_iff {c : Circuit} (hn : c.ids.Nodup) {id : NameId} {d : Device} :
    c.find? id = some d ↔ d ∈ c.devices ∧ d.id = id := by
  refine ⟨fun h => ⟨List.mem_of_find?_eq_some h, id_of_find? h⟩, ?_⟩
  rintro ⟨hd, rfl⟩
  obtain ⟨e, he⟩ : ∃ e, c.find? d.id = some e := by
    refine Option.ne_none_iff_exists'.1 fun hnone => ?_
    exact find?_eq_none_iff.1 hnone (List.mem_map_of_mem hd)
  have hmem := List.mem_of_find?_eq_some he
  rw [he, List.inj_on_of_nodup_map hn hmem hd (id_of_find? he)]

/-- Replacing what is in one device leaves a list without that device as it is. -/
theorem map_modify_of_notMem {devices : List Device} {id : NameId} (f : Logic → Logic)
    (h : id ∉ devices.map (·.id)) :
    devices.map (fun d => if d.id = id then d.mapLogic f else d) = devices := by
  conv_rhs => rw [← List.map_id devices]
  refine List.map_congr_left fun d hd => if_neg ?_
  rintro rfl
  exact h (List.mem_map_of_mem hd)

theorem bare_setSwitch {c c' : Circuit} {id : NameId} {closed : Bool} (hn : c.ids.Nodup)
    (h : c.setSwitch id closed = .ok c') : c'.bare = c.bare := by
  obtain ⟨⟨s, old, hs, hold⟩, rfl⟩ := setSwitch_eq_ok_iff.1 h
  refine mapLogic_modify_of_eq fun d hd hid => ?_
  obtain rfl : d = s := Option.some.inj (((find?_eq_some_iff hn).2 ⟨hd, hid⟩).symm.trans hs)
  rw [hold]
  rfl

theorem ext_find? {c c' : Circuit} (hn : c.ids.Nodup) (hs : SameShape c c')
    (h : ∀ id ∈ c.ids, c'.find? id = c.find? id) : c' = c := by
  have hn' : c'.ids.Nodup := by rwa [hs.1]
  have hlen : c'.devices.length = c.devices.length := hs.size_eq
  have hdev : c'.devices = c.devices := by
    refine List.ext_getElem hlen fun i hi' hi => ?_
    have hid : c'.devices[i].id = c.devices[i].id := by
      have := congrArg (·[i]?) hs.1
      simpa [ids, hi, hi'] using this
    have hget := (find?_eq_some_iff hn).2 ⟨List.getElem_mem hi, rfl⟩
    have hget' := (find?_eq_some_iff hn').2 ⟨List.getElem_mem hi', hid⟩
    have hmem : c.devices[i].id ∈ c.ids := List.mem_map_of_mem (List.getElem_mem hi)
    rw [h _ hmem, hget] at hget'
    exact (Option.some.inj hget').symm
  obtain ⟨devices, limit⟩ := c
  obtain ⟨devices', limit'⟩ := c'
  obtain rfl : devices' = devices := hdev
  obtain rfl : limit' = limit := hs.2
  rfl

/-! ## What an input reads -/

/-- An input reads the same level in two circuits in which its driver has the same level. -/
theorem read_congr {c c' : Circuit} {driver : Option Terminal}
    (h : ∀ t, driver = some t → c'.output? t = c.output? t) : c'.read driver = c.read driver := by
  cases driver with
  | none => rfl
  | some t => simp only [read, Option.bind_some, h t rfl]

theorem output?_congr {c c' : Circuit} {t : Terminal}
    (h : c'.find? t.device = c.find? t.device) : c'.output? t = c.output? t := by
  simp only [output?, h]

/-! ## Agreement -/

/-- The two circuits have devices with the same numbers and agree on a view of what is in
them. The order of the devices may differ. -/
def AgreeOn {α : Type} (f : Logic → α) (c c' : Circuit) : Prop :=
  ∀ id, (c'.find? id).map (fun d => f d.logic) = (c.find? id).map fun d => f d.logic

namespace AgreeOn

variable {α β : Type} {f : Logic → α} {g : Logic → β} {c c' : Circuit} {id : NameId}

theorem symm (h : AgreeOn f c c') : AgreeOn f c' c := fun id => (h id).symm

theorem trans {c'' : Circuit} (h : AgreeOn f c c') (h' : AgreeOn f c' c'') : AgreeOn f c c'' :=
  fun id => (h' id).trans (h id)

theorem find? (h : AgreeOn f c c') {d : Device} (hd : c.find? id = some d) :
    ∃ d', c'.find? id = some d' ∧ f d'.logic = f d.logic := by
  have hid := h id
  rw [hd, Option.map_some] at hid
  exact Option.map_eq_some_iff.1 hid

theorem find?_eq_none (h : AgreeOn f c c') (hd : c.find? id = none) : c'.find? id = none := by
  have hid := h id
  rwa [hd, Option.map_none, Option.map_eq_none_iff] at hid

theorem coarsen (h : AgreeOn f c c') (hfg : ∀ {l l'}, f l' = f l → g l' = g l) :
    AgreeOn g c c' := by
  intro id
  cases hd : c.find? id with
  | none => rw [h.find?_eq_none hd]
  | some d =>
    obtain ⟨d', hd', hf⟩ := h.find? hd
    rw [hd', Option.map_some, Option.map_some, hfg hf]

theorem mapLogic {m : Logic → Logic} (hm : ∀ l, f (m l) = f l) (c : Circuit) :
    AgreeOn f c (c.mapLogic m) := by
  intro id
  rw [find?_mapLogic, Option.map_map]
  exact congrArg (Option.map · (c.find? id)) (funext fun d => hm d.logic)

/-- A change of all devices keeps agreement if it respects it at each part. -/
theorem map {m : Logic → Logic} (h : AgreeOn f c c')
    (hm : ∀ {l l'}, f l' = f l → f (m l') = f (m l)) :
    AgreeOn f (c.mapLogic m) (c'.mapLogic m) := by
  intro id
  rw [find?_mapLogic, find?_mapLogic, Option.map_map, Option.map_map]
  exact h.coarsen (g := fun l => f (m l)) hm id

theorem of_bare_eq (h : c'.bare = c.bare) : AgreeOn Logic.bare c c' := by
  have hsame (c : Circuit) : AgreeOn Logic.bare c c.bare :=
    mapLogic (fun l => by cases l <;> rfl) c
  exact (hsame c).trans (h ▸ (hsame c').symm)

end AgreeOn

end Circuit

/-! ## Dependencies -/

/-- Which inputs make a device depend on their driver. -/
inductive Dependency where
  /-- The inputs of gates. -/
  | combinational
  /-- The inputs of gates, and `SET` and `CLEAR` of flip-flops: those that act at once. -/
  | asynchronous
  /-- All inputs other than `DATA`: those that can bring about a change. -/
  | triggering
  deriving DecidableEq, Repr

/-- The drivers of the inputs that count. -/
def Dependency.drivers : Dependency → Logic → List (Option Terminal)
  | _, .gate g => g.inputs
  | .asynchronous, .dtype ff => [ff.set, ff.clear]
  | .triggering, .dtype ff => [ff.clk, ff.set, ff.clear]
  | _, _ => []

namespace Dependency

/-- Which drivers count is a matter of the wiring. -/
theorem drivers_of_bare_eq (k : Dependency) {l l' : Logic} (h : l'.bare = l.bare) :
    k.drivers l' = k.drivers l := by
  have hbare (m : Logic) : k.drivers m.bare = k.drivers m := by
    cases k <;> cases m <;> rfl
  rw [← hbare l', h, hbare]

theorem drivers_asynchronous_subset (l : Logic) :
    asynchronous.drivers l ⊆ triggering.drivers l := by
  cases l <;> simp [drivers]

end Dependency

/-- A refreshed part depends on the levels that act at once, and on no others. -/
theorem Logic.refresh_congr {read read' : Option Terminal → Bool} {l : Logic}
    (h : ∀ t ∈ Dependency.asynchronous.drivers l, read' t = read t) :
    l.refresh read' = l.refresh read := by
  cases l with
  | gate g =>
    have hmap : g.inputs.map read' = g.inputs.map read := List.map_congr_left h
    simp only [refresh, hmap]
  | dtype ff =>
    have hset : read' ff.set = read ff.set := h _ (by simp [Dependency.drivers])
    have hclear : read' ff.clear = read ff.clear := h _ (by simp [Dependency.drivers])
    simp only [refresh, FlipFlop.forced?, hset, hclear]
  | switch | clock => rfl

theorem Logic.refresh_refresh (read : Option Terminal → Bool) (l : Logic) :
    (l.refresh read).refresh read = l.refresh read := by
  cases l with
  | dtype ff =>
    simp only [refresh, FlipFlop.forced?]
    split
    · rfl
    split <;> rfl
  | gate | switch | clock => rfl

namespace Circuit

/-- The first device drives an input of the second one that counts. -/
def Feeds (c : Circuit) (k : Dependency) (a b : NameId) : Prop :=
  ∃ d, c.find? b = some d ∧ ∃ t, some t ∈ k.drivers d.logic ∧ t.device = a

/-- No device depends on itself, not even through others. -/
def Loopless (c : Circuit) (k : Dependency) : Prop :=
  ∀ id, ¬ Relation.TransGen (c.Feeds k) id id

theorem mem_ids_of_feeds {c : Circuit} {k : Dependency} {a b : NameId} (h : c.Feeds k a b) :
    b ∈ c.ids := by
  obtain ⟨d, hd, -⟩ := h
  by_contra hb
  rw [find?_eq_none_iff.2 hb] at hd
  cases hd

/-- The dependencies are a matter of the wiring. -/
theorem AgreeOn.feeds {c c' : Circuit} (h : AgreeOn Logic.bare c c') {k : Dependency}
    {a b : NameId} (hf : c.Feeds k a b) : c'.Feeds k a b := by
  obtain ⟨d, hd, t, ht, ha⟩ := hf
  obtain ⟨d', hd', hbare⟩ := h.find? hd
  exact ⟨d', hd', t, by rwa [k.drivers_of_bare_eq hbare], ha⟩

theorem AgreeOn.loopless {c c' : Circuit} (h : AgreeOn Logic.bare c c') {k : Dependency}
    (hl : c.Loopless k) : c'.Loopless k :=
  fun id hid => hl id (Relation.TransGen.mono (fun _ _ => h.symm.feeds) _ _ hid)

theorem feeds_of_bare_eq {c c' : Circuit} (h : c'.bare = c.bare) {k : Dependency} {a b : NameId}
    (hf : c'.Feeds k a b) : c.Feeds k a b :=
  (AgreeOn.of_bare_eq h).symm.feeds hf

theorem Loopless.of_bare_eq {c c' : Circuit} (h : c'.bare = c.bare) {k : Dependency}
    (hl : c.Loopless k) : c'.Loopless k :=
  (AgreeOn.of_bare_eq h).loopless hl

end Circuit

end Breadboard
