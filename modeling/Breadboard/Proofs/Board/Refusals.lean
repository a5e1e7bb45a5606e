import Breadboard.Proofs.Board.Calls
import Breadboard.Proofs.Circuit.Pins

/-!
# Actions that may be refused

Adding a device, connecting an input, setting a switch, putting on a probe and toggling a signal may
be refused. `Action.Obeys` is the contract of such an action on tables: the condition under which it
is accepted, which is exact, and what it has written then. Refused, it has written nothing. Either
way the answer is that of the function of the board.

The conditions are read off the tables and not off the actions: which devices there are, with which
pins, and which of these are open (`DeviceKind.Accepts` for the parameter of a device).

* `Logic.ofKind_eq_ok_iff`: when a part can be made, and what it is then.
* `obeys_addDevice` and the other four: the contracts on tables and the board that they hold.
* `tables_obey`: the main result, for all tables that calls can make.
-/
namespace Breadboard

/-! ## Parts -/

/-- The parameters that a kind of device takes. -/
def DeviceKind.Accepts (parameter : Option UInt32) : DeviceKind → Prop
  | gate g => ∀ n ∈ parameter, 1 ≤ n.toNat ∧ n.toNat ≤ maxGateInputs ∧ (g = .xor → n = 2)
  | switch => ∀ n ∈ parameter, n = 0 ∨ n = 1
  | clock => ∃ n ∈ parameter, n ≠ 0
  | dtype => True

namespace Logic

/-- The part of a kind as it is when the power comes on: nothing is connected, every output is low,
a switch is in the position that the parameter says, and a clock has its half-period from it. -/
def initial (parameter : Option UInt32) : DeviceKind → Logic
  | .gate g => gate { kind := g, inputs := List.replicate ((parameter.map (·.toNat)).getD 2) none }
  | .switch => switch (parameter == some 1)
  | .clock => clock { halfPeriod := parameter.getD 0 }
  | .dtype => dtype {}

theorem ofKind_eq_ok_iff {kind : DeviceKind} {parameter : Option UInt32} {l : Logic} :
    ofKind kind parameter = .ok l ↔ kind.Accepts parameter ∧ l = initial parameter kind := by
  cases kind with
  | gate g =>
    cases parameter with
    | none => cases g <;> simp [ofKind, initial, DeviceKind.Accepts, eq_comm]
    | some n =>
      by_cases hg : g = .xor
      · subst hg
        have htwo : 2 ≤ maxGateInputs := by decide
        by_cases hn : n = 2 <;> simp [ofKind, initial, DeviceKind.Accepts, hn, htwo, eq_comm]
      · by_cases hn : 1 ≤ n.toNat ∧ n.toNat ≤ maxGateInputs <;>
          simp [ofKind, initial, DeviceKind.Accepts, hg, hn, eq_comm]
  | switch =>
    cases parameter with
    | none => simp [ofKind, initial, DeviceKind.Accepts, eq_comm]
    | some n =>
      by_cases hzero : n = 0
      · simp [ofKind, initial, DeviceKind.Accepts, hzero, eq_comm]
      · by_cases hone : n = 1 <;>
          simp [ofKind, initial, DeviceKind.Accepts, hzero, hone, eq_comm]
  | clock =>
    cases parameter with
    | none => simp [ofKind, DeviceKind.Accepts]
    | some n =>
      by_cases hzero : n = 0 <;> simp [ofKind, initial, DeviceKind.Accepts, hzero, eq_comm]
  | dtype => simp [ofKind, initial, DeviceKind.Accepts, eq_comm]

/-- The second part is the first one with a driver put in place at an input that was open. -/
structure Drives (pin : InputPin) (source : Terminal) (l l' : Logic) : Prop where
  isOpen : (pin, none) ∈ l.inputs
  inputs : l'.inputs =
    l.inputs.map fun (other, driver) => (other, if other = pin then some source else driver)
  unwired : l'.unwired = l.unwired

theorem drives_drive {l : Logic} {pin : InputPin} (h : l.input? pin = some none)
    (source : Terminal) : l.Drives pin source (l.drive pin source) :=
  ⟨mem_inputs_iff.2 h, inputs_drive l pin source, unwired_drive l pin source⟩

end Logic

/-! ## Contracts -/

/-- The contract of an action on tables: exactly if `allowed` holds it is accepted, and the tables
afterwards are as `effect` says. Otherwise it is refused, and the tables are what they were. The
result is that of a function of the board, which is the board of the tables afterwards. -/
structure Action.Obeys {ε α : Type} (a : Action ε α) (x : Tables) (result : Except ε (α × Board))
    (allowed : Prop) (effect : α → Tables → Prop) : Prop where
  accepted : allowed → ∃ v x' b', a.outcome x = (.ok v, x') ∧ effect v x' ∧
    result = .ok (v, b') ∧ x'.Holds b'
  refused : ¬allowed → ∃ e, a.outcome x = (.error (.refused e), x) ∧ result = .error e

namespace Tables

variable {ε α : Type} {x : Tables} {b : Board}

/-- A contract is read off the results of the function that the action refines. -/
theorem Refines.obeys {a : Action ε α} {result : Except ε (α × Board)} {allowed : Prop}
    {written effect : α → Tables → Prop} (ha : Refines a x result written)
    (haccepted : allowed → ∃ r, result = .ok r)
    (heffect : ∀ v b', result = .ok (v, b') → allowed ∧
      ∀ x', x'.Holds b' → written v x' → effect v x') : a.Obeys x result allowed effect where
  accepted hallowed := by
    obtain ⟨⟨v, b'⟩, rfl⟩ := haccepted hallowed
    obtain ⟨x', hx', hholds, hwritten⟩ := ha
    exact ⟨v, x', b', hx', (heffect v b' rfl).2 x' hholds hwritten, rfl, hholds⟩
  refused hnot := by
    cases result with
    | ok r => exact absurd (heffect r.1 r.2 rfl).1 hnot
    | error e => exact ⟨e, ha, rfl⟩

/-- An action that answers nothing has the result of a function to parts of the board. -/
theorem Refines.obeys_of_map {γ : Type} {a : Action ε Unit} {result : Except ε γ}
    {put : γ → Board} {allowed : Prop} {written effect : Unit → Tables → Prop}
    (ha : Refines a x (result.map fun r => ((), put r)) written)
    (haccepted : allowed → ∃ r, result = .ok r)
    (heffect : ∀ r, result = .ok r → allowed ∧
      ∀ x', x'.Holds (put r) → written () x' → effect () x') :
    a.Obeys x (result.map fun r => ((), put r)) allowed effect := by
  refine ha.obeys (fun hallowed => ?_) fun v b' hmap => ?_
  · obtain ⟨r, rfl⟩ := haccepted hallowed
    exact ⟨_, rfl⟩
  · cases hresult : result with
    | ok r =>
      rw [hresult] at hmap
      cases hmap
      exact heffect r hresult
    | error e =>
      rw [hresult] at hmap
      cases hmap

/-! ### Conditions -/

/-- There is a device with the number of an output, and it has such a pin. -/
def HasOutput (x : Tables) (t : Terminal) : Prop :=
  ∃ d ∈ x.devices, d.id = t.device ∧ t.pin ∈ d.logic.outputPins

/-- There is a device with a number, and it has such an input, which nothing drives. -/
def HasOpenInput (x : Tables) (id : NameId) (pin : InputPin) : Prop :=
  ∃ d ∈ x.devices, d.id = id ∧ (pin, none) ∈ d.inputs

/-- The device with a number is in the tables exactly if a search finds it. -/
theorem Holds.find?_eq_some_iff (h : x.Holds b) (hn : b.circuit.ids.Nodup) {id : NameId}
    {d : Device} : b.circuit.find? id = some d ↔ d ∈ x.devices ∧ d.id = id := by
  rw [Circuit.find?_eq_some_iff hn, h.mem_devices]

theorem Holds.hasOutput_iff (h : x.Holds b) (hn : b.circuit.ids.Nodup) {t : Terminal} :
    x.HasOutput t ↔ b.circuit.hasTerminal t = true := by
  simp only [HasOutput, Circuit.hasTerminal_iff, h.find?_eq_some_iff hn, and_assoc]

theorem Holds.hasOpenInput_iff (h : x.Holds b) (hn : b.circuit.ids.Nodup) {id : NameId}
    {pin : InputPin} :
    x.HasOpenInput id pin ↔ ∃ d, b.circuit.find? id = some d ∧ d.input? pin = some none := by
  simp only [HasOpenInput, h.find?_eq_some_iff hn, and_assoc]
  refine exists_congr fun d => and_congr_right fun _ => and_congr_right fun _ => ?_
  exact Logic.mem_inputs_iff

/-! ### The five actions -/

theorem obeys_addDevice (h : x.Holds b) (id : NameId) (kind : DeviceKind)
    (parameter : Option UInt32) :
    (addDevice id kind parameter).Obeys x
      ((b.circuit.addDevice id kind parameter).map fun circuit => ((), { b with circuit }))
      ((∀ d ∈ x.devices, d.id ≠ id) ∧ kind.Accepts parameter)
      fun _ x' => x' = { x with
        devices := x.devices.push { id, logic := .initial parameter kind }
        index := x.index.insert id x.devices.size } := by
  have hnew : (∀ d ∈ x.devices, d.id ≠ id) ↔ id ∉ b.circuit.ids := by
    simp [Circuit.ids, h.mem_devices]
  rw [hnew]
  refine (refines_addDevice h id kind parameter).obeys_of_map ?_ fun circuit hadd => ?_
  · rintro ⟨hid, hparameter⟩
    exact ⟨_, Circuit.addDevice_eq_ok_iff.2
      ⟨hid, _, Logic.ofKind_eq_ok_iff.2 ⟨hparameter, rfl⟩, rfl⟩⟩
  · obtain ⟨hid, l, hl, -⟩ := Circuit.addDevice_eq_ok_iff.1 hadd
    refine ⟨⟨hid, (Logic.ofKind_eq_ok_iff.1 hl).1⟩, ?_⟩
    rintro x' - ⟨logic, hlogic, rfl⟩
    rw [(Logic.ofKind_eq_ok_iff.1 hlogic).2]

theorem obeys_connect (h : x.Holds b) (hn : b.circuit.ids.Nodup) (source : Terminal)
    (target : NameId) (pin : InputPin) :
    (connect source target pin).Obeys x
      ((b.circuit.connect source target pin).map fun circuit => ((), { b with circuit }))
      (x.HasOutput source ∧ x.HasOpenInput target pin)
      fun _ x' => x' = { x with devices := x'.devices } ∧
        x.circuit.DiffersAt target (Logic.Drives pin source) x'.circuit := by
  rw [h.hasOutput_iff hn, h.hasOpenInput_iff hn]
  refine (refines_connect h source target pin).obeys_of_map ?_ fun circuit hconnect => ?_
  · rintro ⟨hout, hopen⟩
    exact ⟨_, Circuit.connect_eq_ok_iff.2 ⟨hout, hopen, rfl⟩⟩
  · obtain ⟨hout, ⟨d, hd, hopen⟩, rfl⟩ := Circuit.connect_eq_ok_iff.1 hconnect
    refine ⟨⟨hout, d, hd, hopen⟩, fun x' hholds hwritten => ⟨hwritten, ?_⟩⟩
    rw [h.circuit, hholds.circuit]
    exact Circuit.differsAt_modify hn hd (Logic.drives_drive hopen source)

theorem obeys_setSwitch (h : x.Holds b) (hn : b.circuit.ids.Nodup) (id : NameId)
    (closed : Bool) :
    (setSwitch id closed).Obeys x
      ((b.circuit.setSwitch id closed).map fun circuit => ((), { b with circuit }))
      (∃ d ∈ x.devices, d.id = id ∧ d.kind = .switch)
      fun _ x' => x' = { x with devices := x'.devices } ∧ x.circuit.DiffersAt id
        (fun l l' => ∃ old, l = .switch old ∧ l' = .switch closed) x'.circuit := by
  have hkind (d : Device) : d.kind = .switch ↔ ∃ old, d.logic = .switch old := by
    rw [Device.kind]
    cases d.logic <;> simp [Logic.kind]
  refine (refines_setSwitch h id closed).obeys_of_map ?_ fun circuit hset => ?_
  · rintro ⟨d, hd, hid, hswitch⟩
    obtain ⟨old, hold⟩ := (hkind d).1 hswitch
    exact ⟨_, Circuit.setSwitch_eq_ok_iff.2
      ⟨⟨d, old, (h.find?_eq_some_iff hn).2 ⟨hd, hid⟩, hold⟩, rfl⟩⟩
  · obtain ⟨⟨d, old, hfind, hold⟩, rfl⟩ := Circuit.setSwitch_eq_ok_iff.1 hset
    obtain ⟨hd, hid⟩ := (h.find?_eq_some_iff hn).1 hfind
    refine ⟨⟨d, hd, hid, (hkind d).2 ⟨old, hold⟩⟩, fun x' hholds hwritten => ⟨hwritten, ?_⟩⟩
    rw [h.circuit, hholds.circuit]
    exact Circuit.differsAt_modify hn hfind ⟨old, hold, rfl⟩

theorem obeys_addProbe (h : x.Holds b) (hn : b.circuit.ids.Nodup) (t : Terminal) (blanks : Nat) :
    (addProbe t blanks).Obeys x
      ((b.probes.add b.circuit t blanks).map fun probes => ((), { b with probes }))
      (x.HasOutput t ∧ t ∉ x.traces)
      fun _ x' => x' = { x with traces := x.traces.insert t (Array.replicate blanks .blank) } := by
  rw [h.hasOutput_iff hn, h.mem_traces_iff, Bool.not_eq_true]
  refine (refines_addProbe h t blanks).obeys_of_map ?_ fun probes hadd => ?_
  · rintro ⟨hout, hoff⟩
    exact ⟨_, Probes.add_eq_ok_iff.2 ⟨hout, hoff, rfl⟩⟩
  · obtain ⟨hout, hoff, -⟩ := Probes.add_eq_ok_iff.1 hadd
    exact ⟨⟨hout, hoff⟩, fun _ _ hwritten => hwritten⟩

theorem obeys_toggle (h : x.Holds b) (hn : b.circuit.ids.Nodup) (name : String) (blanks : Nat) :
    (toggle name blanks).Obeys x (b.toggle name blanks)
      (∃ t, x.terminal? name = some t ∧ x.HasOutput t)
      fun probed x' => ∃ t, x.terminal? name = some t ∧ Flipped t blanks probed x x' := by
  refine (refines_toggle h name blanks).obeys ?_ fun probed b' htoggle => ?_
  · rintro ⟨t, ht, hout⟩
    rw [h.terminal?_eq] at ht
    exact ⟨_, Board.toggle_flips ht ((h.hasOutput_iff hn).1 hout) blanks⟩
  · obtain ⟨t, ht, hout, -⟩ := Board.toggle_cases htoggle
    rw [← h.terminal?_eq] at ht
    exact ⟨⟨t, ht, (h.hasOutput_iff hn).2 hout⟩, fun _ _ hwritten => hwritten⟩

/-- **Refusals.** Every board that operations make, readings among them, is made by calls. On all
tables that calls make, the five actions that may be refused keep to their contracts, for all
arguments. Adding a device needs a new number and a parameter that the kind takes, and puts one
device, as it is when the power comes on, behind the others, and its place into the index.
Connecting needs an output that exists and an input that exists and is open, and changes nothing but
the driver there. Setting needs a switch, and changes nothing but its position. Probes are put on
outputs, and one probe on each at most. Where the condition does not hold, the action is refused
before it has written anything: the names, the devices with their index and the traces are what they
were. -/
theorem tables_obey (passLimit : Nat) :
    (∀ ops : List Operation, ∃ calls : List Call,
      Board.ofOperations passLimit (calls.map Call.operation) = .ofOperations passLimit ops) ∧
    ∀ calls : List Call,
      let x := ofCalls passLimit calls
      let b := Board.ofOperations passLimit (calls.map Call.operation)
      x.Holds b ∧
      (∀ id kind parameter,
        (addDevice id kind parameter).Obeys x
          ((b.circuit.addDevice id kind parameter).map fun circuit => ((), { b with circuit }))
          ((∀ d ∈ x.devices, d.id ≠ id) ∧ kind.Accepts parameter)
          fun _ x' => x' = { x with
            devices := x.devices.push { id, logic := .initial parameter kind }
            index := x.index.insert id x.devices.size }) ∧
      (∀ source target pin,
        (connect source target pin).Obeys x
          ((b.circuit.connect source target pin).map fun circuit => ((), { b with circuit }))
          (x.HasOutput source ∧ x.HasOpenInput target pin)
          fun _ x' => x' = { x with devices := x'.devices } ∧
            x.circuit.DiffersAt target (Logic.Drives pin source) x'.circuit) ∧
      (∀ id closed,
        (setSwitch id closed).Obeys x
          ((b.circuit.setSwitch id closed).map fun circuit => ((), { b with circuit }))
          (∃ d ∈ x.devices, d.id = id ∧ d.kind = .switch)
          fun _ x' => x' = { x with devices := x'.devices } ∧ x.circuit.DiffersAt id
            (fun l l' => ∃ old, l = .switch old ∧ l' = .switch closed) x'.circuit) ∧
      (∀ t blanks,
        (addProbe t blanks).Obeys x
          ((b.probes.add b.circuit t blanks).map fun probes => ((), { b with probes }))
          (x.HasOutput t ∧ t ∉ x.traces)
          fun _ x' =>
            x' = { x with traces := x.traces.insert t (Array.replicate blanks .blank) }) ∧
      ∀ name blanks,
        (toggle name blanks).Obeys x (b.toggle name blanks)
          (∃ t, x.terminal? name = some t ∧ x.HasOutput t)
          fun probed x' => ∃ t, x.terminal? name = some t ∧ Flipped t blanks probed x x' := by
  refine ⟨Made.foldl_apply (.empty passLimit), fun calls => ?_⟩
  have h := holds_ofCalls passLimit calls
  have hn := ((Board.wellFormed_empty passLimit).foldl_apply
    (calls.map Call.operation)).circuit.nodup
  exact ⟨h, obeys_addDevice h, obeys_connect h hn, obeys_setSwitch h hn, obeys_addProbe h hn,
    obeys_toggle h hn⟩

end Tables

end Breadboard
