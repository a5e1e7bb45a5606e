import Breadboard.Proofs.Definition.RenamedTree
import Breadboard.Proofs.Session.SignalNames
import Mathlib.Algebra.Order.BigOperators.Group.List
import Mathlib.Algebra.Order.Group.Nat

/-!
# Renamed devices

What the devices of a definition are called makes no difference to a session on it, even if they are
called like a pin or a heading. `Alike r g s s'` says that two sessions are the same up to the names
of the devices, which `r` turns into the others, and their numbers, which `g` does.

* `Alike.take`: sessions that are alike give the same answer to the same step, and stay alike.
* `Alike.afterAll`, `Alike.showsAs`: so do they for every sequence of steps, and they show the same.
* `renamed_session`: the definition with other names is accepted, and the sessions are alike.
-/
namespace Breadboard

/-! ## Names of signals -/

/-- What is before the first dot of a signal name. -/
def deviceOf (signal : String) : String := ((Text.cutAt? '.' signal).map Prod.fst).getD signal

/-- A signal name with another name for the device. -/
def renameSignal (r : String → String) (signal : String) : String :=
  match Text.cutAt? '.' signal with
  | some (device, pin) => r device ++ String.singleton '.' ++ pin
  | none => r signal

/-- A signal name of a device is the name of the device, or has the name of a pin behind a dot. -/
theorem deviceOf_cases (name : String) :
    (Text.cutAt? '.' name = none ∧ deviceOf name = name) ∨
      ∃ pin, Text.cutAt? '.' name = some (deviceOf name, pin) := by
  unfold deviceOf
  cases Text.cutAt? '.' name with
  | none => exact .inl ⟨rfl, rfl⟩
  | some cut => exact .inr ⟨cut.2, rfl⟩

namespace Board

variable {b : Board} {name : String} {id : NameId}

theorem device?_eq_some_iff :
    b.device? name = some id ↔ b.names.query? name = some id ∧ id ∈ b.circuit.ids := by
  rw [device?, Option.filter_eq_some_iff, Circuit.contains_iff_mem_ids]

/-- A text is read as an output of the device that it begins with. -/
theorem terminal?_cases (b : Board) (name : String) :
    b.terminal? name = none ∨
      ∃ t, b.terminal? name = some t ∧ b.names.query? (deviceOf name) = some t.device := by
  unfold terminal?
  rcases deviceOf_cases name with ⟨hcut, hdevice⟩ | ⟨pin, hcut⟩
  · rw [hcut, hdevice]
    cases b.names.query? name with
    | none => exact .inl rfl
    | some id => exact .inr ⟨⟨id, .out⟩, rfl, rfl⟩
  · rw [hcut]
    simp only
    cases OutputPin.ofName? pin with
    | none => exact .inl rfl
    | some pin =>
      cases b.names.query? (deviceOf name) with
      | none => exact .inl rfl
      | some id => exact .inr ⟨⟨id, pin⟩, rfl, rfl⟩

/-- A text that begins with no name of a device is no signal name. -/
theorem toggle_of_device?_eq_none (h : b.device? (deviceOf name) = none)
    (blanks : Nat) : b.toggle name blanks = .error (.unknownSignal name) := by
  refine toggle_of_unknown (fun t ht => ?_) blanks
  rcases b.terminal?_cases name with hnone | ⟨t', ht', hquery⟩
  · rw [hnone] at ht
    cases ht
  obtain rfl : t' = t := Option.some.inj (ht'.symm.trans ht)
  have habsent : t'.device ∉ b.circuit.ids := by
    intro hmem
    rw [device?_eq_some_iff.2 ⟨hquery, hmem⟩] at h
    cases h
  rw [Circuit.hasTerminal, Circuit.find?_eq_none_iff.2 habsent]
  rfl

end Board

namespace Session

/-! ## Steps and answers -/

/-- The same step with other names in it, given the numbers of the devices in two sessions. What
stands for no device in the first session has a counterpart that stands for none in the second. -/
inductive Step.Renamed (r : String → String) (device? device?' : String → Option NameId) :
    Step → Step → Prop where
  | run (cycles : Nat) : Renamed r device? device?' (.run cycles) (.run cycles)
  | execute : Renamed r device? device?' .execute .execute
  | record : Renamed r device? device?' .record .record
  | setSwitch {name : String} {id id' : NameId} (closed : Bool) :
      device? name = some id → device?' (r name) = some id' →
        Renamed r device? device?' (.setSwitch id closed) (.setSwitch id' closed)
  | setAbsent {id id' : NameId} (closed : Bool) :
      (∀ name, device? name ≠ some id) → (∀ name, device?' name ≠ some id') →
        Renamed r device? device?' (.setSwitch id closed) (.setSwitch id' closed)
  | toggle {name : String} :
      (device? (deviceOf name)).isSome →
        Renamed r device? device?' (.toggle name) (.toggle (renameSignal r name))
  | toggleAbsent {name name' : String} :
      device? (deviceOf name) = none → device?' (deviceOf name') = none →
        Renamed r device? device?' (.toggle name) (.toggle name')
  | reset : Renamed r device? device?' .reset .reset

/-- The same answer, or refusals of the same variant. -/
inductive Answer.Same : Answer → Answer → Prop where
  | done : Same .done .done
  | ran (result : Except Unrest Unit) (notice : Notice) :
      Same (.ran result notice) (.ran result notice)
  | executed (result : Except Unrest Unit) : Same (.executed result) (.executed result)
  | set : Same (.set none) (.set none)
  | absent (id id' : NameId) : Same (.set (some (.absent id))) (.set (some (.absent id')))
  | notSwitch (id id' : NameId) : Same (.set (some (.notSwitch id))) (.set (some (.notSwitch id')))
  | toggled (probed : Bool) : Same (.toggled (.ok probed)) (.toggled (.ok probed))
  | unknownSignal (name name' : String) :
      Same (.toggled (.error (.unknownSignal name))) (.toggled (.error (.unknownSignal name')))

/-- The second session shows what the first one does, under other names. -/
structure ShowsAs (r : String → String) (s s' : Session) : Prop where
  cycles : s'.cycles = s.cycles
  levels : s'.board.circuit.levels = s.board.circuit.levels
  /-- The outputs with their names and levels, in the order of declaration. -/
  outputs : (s'.board.circuit.terminals.map fun t =>
      (s'.board.signalName t, s'.board.circuit.output? t)) =
    s.board.circuit.terminals.map fun t =>
      (renameSignal r (s.board.signalName t), s.board.circuit.output? t)
  traces : s'.board.traces = s.board.traces.map fun (name, trace) => (renameSignal r name, trace)
  trace? : ∀ name, (s.board.device? (deviceOf name)).isSome →
    s'.board.trace? (renameSignal r name) = s.board.trace? name

/-! ## Devices -/

/-- No step changes what the devices are called. -/
theorem device?_after (s : Session) (step : Step) :
    (s.after step).board.device? = s.board.device? := by
  have hleads := leads_after s step
  funext name
  have hcontains : (s.after step).board.circuit.contains = s.board.circuit.contains := by
    funext id
    rw [Bool.eq_iff_iff, Circuit.contains_iff_mem_ids, Circuit.contains_iff_mem_ids, hleads.ids_eq]
  rw [Board.device?, hleads.names_eq, hcontains, Board.device?]

/-- What is no device is no switch. -/
theorem setSwitch_of_absent {s : Session} {id : NameId} (hnamed : s.board.Named)
    (h : ∀ name, s.board.device? name ≠ some id) (closed : Bool) :
    s.setSwitch id closed = .error (.absent id) := by
  have habsent : id ∉ s.board.circuit.ids := by
    intro hmem
    obtain ⟨name, hquery, -⟩ := hnamed id hmem
    exact h name (Board.device?_eq_some_iff.2 ⟨hquery, hmem⟩)
  rw [Session.setSwitch, Circuit.setSwitch, Circuit.find?_eq_none_iff.2 habsent]
  rfl

/-! ## Sessions that are alike -/

/-- The sessions are the same up to the names and the numbers of the devices. -/
structure Alike (r : String → String) (g : NameId → NameId) (s s' : Session) : Prop where
  injective : g.Injective
  circuit : s'.board.circuit = s.board.circuit.relabel g
  probes : s'.board.probes = s.board.probes.relabel g
  cycles : s'.cycles = s.cycles
  named : s.board.Named
  renamed : ∀ id ∈ s.board.circuit.ids, ∀ name, s.board.names.query? name = some id →
    s'.board.names.query? (r name) = some (g id) ∧ '.' ∉ (r name).toList

namespace Alike

variable {r : String → String} {g : NameId → NameId} {s s' : Session} {name : String} {id : NameId}

section
variable (h : Alike r g s s')
include h

/-! ## Devices and signals -/

theorem device? (hdevice : s.board.device? name = some id) :
    s'.board.device? (r name) = some (g id) := by
  obtain ⟨hquery, hid⟩ := Board.device?_eq_some_iff.1 hdevice
  refine Board.device?_eq_some_iff.2 ⟨(h.renamed id hid name hquery).1, ?_⟩
  rw [h.circuit, Circuit.ids_relabel]
  exact List.mem_map_of_mem hid

/-- The devices of the second session have names of their own, too. -/
theorem named' : s'.board.Named := by
  intro id' hid'
  rw [h.circuit, Circuit.ids_relabel] at hid'
  obtain ⟨id, hid, rfl⟩ := List.mem_map.1 hid'
  obtain ⟨name, hquery, -⟩ := h.named id hid
  exact ⟨r name, h.renamed id hid name hquery⟩

/-- A renamed signal name stands for the same output. -/
theorem terminal? (hdevice : (s.board.device? (deviceOf name)).isSome) :
    s'.board.terminal? (renameSignal r name) =
      (s.board.terminal? name).map (Terminal.relabel g) := by
  obtain ⟨id, hid⟩ := Option.isSome_iff_exists.1 hdevice
  obtain ⟨hquery, hmem⟩ := Board.device?_eq_some_iff.1 hid
  obtain ⟨hquery', hdot⟩ := h.renamed id hmem _ hquery
  rcases deviceOf_cases name with ⟨hcut, hname⟩ | ⟨pin, hcut⟩
  · rw [hname] at hquery hquery' hdot
    simp only [Board.terminal?, renameSignal, hcut, Text.cutAt?_of_notMem hdot, hquery, hquery']
    rfl
  · simp only [Board.terminal?, renameSignal, hcut, Text.cutAt?_join hdot, hquery, hquery',
      Option.map_bind, Function.comp_def, Option.map_some]
    rfl

theorem signalName {t : Terminal} (ht : t.device ∈ s.board.circuit.ids) :
    s'.board.signalName (t.relabel g) = renameSignal r (s.board.signalName t) := by
  obtain ⟨name, hquery, hdot⟩ := h.named t.device ht
  obtain ⟨hquery', -⟩ := h.renamed t.device ht name hquery
  have hname := NameTable.displayName_of_query? hquery
  have hname' : s'.board.names.displayName (t.relabel g).device = r name :=
    NameTable.displayName_of_query? hquery'
  unfold Board.signalName
  rw [show (t.relabel g).pin = t.pin from rfl, hname, hname']
  cases t.pin.name? with
  | none => rw [renameSignal, Text.cutAt?_of_notMem hdot]
  | some pin =>
    have hcut : Text.cutAt? '.' s!"{name}.{pin}" = some (name, pin) := Text.cutAt?_join hdot
    rw [renameSignal, hcut]
    rfl

/-! ## Steps -/

theorem execute :
    s'.execute.1 = s.execute.1 ∧ Alike r g s.execute.2 s'.execute.2 := by
  have hcycle := Circuit.cycle_relabel h.injective s.board.circuit
  rw [← h.circuit] at hcycle
  have hresult : s'.board.circuit.cycle.1 = s.board.circuit.cycle.1 := by rw [hcycle]
  have hcircuit : s'.board.circuit.cycle.2 = s.board.circuit.cycle.2.relabel g := by rw [hcycle]
  have hids : s.execute.2.board.circuit.ids = s.board.circuit.ids :=
    (Circuit.sameShape_cycle s.board.circuit).1
  refine ⟨hresult, h.injective, hcircuit, h.probes, h.cycles,
    h.named.of_names_eq rfl hids, fun id hid => h.renamed id ?_⟩
  rwa [← hids]

theorem record : Alike r g s.record s'.record where
  injective := h.injective
  circuit := h.circuit
  probes := by
    show s'.board.probes.record s'.board.circuit = _
    rw [h.probes, h.circuit, Probes.record_relabel h.injective]
    rfl
  cycles := congrArg (· + 1) h.cycles
  named := h.named
  renamed := h.renamed

theorem run (n : Nat) : (s'.run n).1 = (s.run n).1 ∧ Alike r g (s.run n).2 (s'.run n).2 :=
  run_simulates execute record n h

theorem reset : Alike r g s.reset s'.reset where
  injective := h.injective
  circuit := by
    show s'.board.circuit.reset = s.board.circuit.reset.relabel g
    rw [h.circuit, Circuit.reset_relabel]
  probes := by
    show s'.board.probes.clear = s.board.probes.clear.relabel g
    rw [h.probes, Probes.clear_relabel]
  cycles := rfl
  named := h.named.of_names_eq rfl (Circuit.ids_mapLogic _ _)
  renamed id hid := h.renamed id (by rwa [← Circuit.ids_mapLogic s.board.circuit Logic.reset])

theorem setSwitch (id : NameId) (closed : Bool) :
    Answer.Same (s.take (.setSwitch id closed)).1 (s'.take (.setSwitch (g id) closed)).1 ∧
      Alike r g (s.after (.setSwitch id closed)) (s'.after (.setSwitch (g id) closed)) := by
  have hcases := Circuit.setSwitch_relabel h.injective s.board.circuit id closed
  rw [← h.circuit] at hcases
  simp only [after, Session.take, Session.setSwitch]
  rcases hcases with ⟨c, hset, hset'⟩ | ⟨hset, hset'⟩ | ⟨hset, hset'⟩ <;> rw [hset, hset']
  · have hids : c.ids = s.board.circuit.ids := by
      rw [(Circuit.setSwitch_eq_ok_iff.1 hset).2, Circuit.ids_modify]
    refine ⟨.set, h.injective, rfl, h.probes, h.cycles, h.named.of_names_eq rfl hids,
      fun id hid => h.renamed id ?_⟩
    rwa [← hids]
  · exact ⟨.absent _ _, h⟩
  · exact ⟨.notSwitch _ _, h⟩

theorem toggle (hdevice : (s.board.device? (deviceOf name)).isSome) :
    Answer.Same (s.take (.toggle name)).1 (s'.take (.toggle (renameSignal r name))).1 ∧
      Alike r g (s.after (.toggle name)) (s'.after (.toggle (renameSignal r name))) := by
  have hread := h.terminal? hdevice
  have hout (t : Terminal) : s'.board.circuit.hasTerminal (t.relabel g) =
      s.board.circuit.hasTerminal t := by
    rw [h.circuit, Circuit.hasTerminal_relabel h.injective]
  have hprobe (t : Terminal) : s'.board.probes.contains (t.relabel g) =
      s.board.probes.contains t := by
    rw [h.probes, Probes.contains_relabel h.injective]
  simp only [after, Session.take, Session.toggle, h.cycles]
  rcases s.board.unknown_or_exists_output name with hnone | ⟨t, ht, hsome⟩
  · have hnone' : ∀ t', s'.board.terminal? (renameSignal r name) = some t' →
        s'.board.circuit.hasTerminal t' = false := by
      intro t' ht'
      rw [hread] at ht'
      obtain ⟨t, ht, rfl⟩ := Option.map_eq_some_iff.1 ht'
      rw [hout, hnone t ht]
    rw [Board.toggle_of_unknown hnone, Board.toggle_of_unknown hnone']
    exact ⟨.unknownSignal _ _, h⟩
  have ht' : s'.board.terminal? (renameSignal r name) = some (t.relabel g) := by rw [hread, ht]; rfl
  have hsome' := (hout t).trans hsome
  cases hon : s.board.probes.contains t with
  | true =>
    rw [Board.toggle_of_probed ht hsome hon,
      Board.toggle_of_probed ht' hsome' ((hprobe t).trans hon)]
    refine ⟨.toggled false, h.injective, h.circuit, ?_, rfl, h.named, h.renamed⟩
    exact (congrArg (Probes.remove · _) h.probes).trans (Probes.remove_relabel h.injective _ t)
  | false =>
    rw [Board.toggle_of_unprobed ht hsome hon,
      Board.toggle_of_unprobed ht' hsome' ((hprobe t).trans hon)]
    refine ⟨.toggled true, h.injective, h.circuit, ?_, rfl, h.named, h.renamed⟩
    show (⟨s'.board.probes.probes ++ _⟩ : Probes) = Probes.relabel g ⟨s.board.probes.probes ++ _⟩
    rw [h.probes, Probes.append_relabel]

/-- Sessions that are alike give the same answer to the same step, and stay alike. -/
theorem take {step step' : Step}
    (hstep : step.Renamed r s.board.device? s'.board.device? step') :
    Answer.Same (s.take step).1 (s'.take step').1 ∧
      Alike r g (s.after step) (s'.after step') := by
  cases hstep with
  | run cycles =>
    obtain ⟨hresult, hrun⟩ := h.run cycles
    refine ⟨?_, hrun⟩
    simp only [Session.take, runNotice, hresult, hrun.cycles]
    exact .ran _ _
  | execute =>
    obtain ⟨hresult, hexecute⟩ := h.execute
    refine ⟨?_, hexecute⟩
    simp only [Session.take, hresult]
    exact .executed _
  | record => exact ⟨.done, h.record⟩
  | @setSwitch name id id' closed hid hid' =>
    obtain rfl : id' = g id := Option.some.inj (hid'.symm.trans (h.device? hid))
    exact h.setSwitch id closed
  | @setAbsent id id' closed hid hid' =>
    simp only [after, Session.take, setSwitch_of_absent h.named hid,
      setSwitch_of_absent h.named' hid']
    exact ⟨.absent _ _, h⟩
  | toggle hdevice => exact h.toggle hdevice
  | toggleAbsent hdevice hdevice' =>
    simp only [after, Session.take, Session.toggle, Board.toggle_of_device?_eq_none hdevice,
      Board.toggle_of_device?_eq_none hdevice', Except.map]
    exact ⟨.unknownSignal _ _, h⟩
  | reset => exact ⟨.done, h.reset⟩

/-- Sessions that are alike show the same. -/
theorem showsAs : ShowsAs r s s' where
  cycles := h.cycles
  levels := by rw [h.circuit, Circuit.levels_relabel]
  outputs := by
    rw [h.circuit, Circuit.terminals_relabel, List.map_map]
    refine List.map_congr_left fun t ht => ?_
    simp only [Function.comp_apply, h.signalName (Board.device_mem_ids_of_mem_terminals ht),
      Circuit.output?_relabel h.injective]
  traces := by
    rw [Board.traces, h.circuit, h.probes, Probes.traces_relabel h.injective, Board.traces,
      List.map_map, List.map_map]
    refine List.map_congr_left fun entry hentry => ?_
    obtain ⟨t, ht, htrace⟩ := List.mem_filterMap.1 hentry
    obtain ⟨trace, -, rfl⟩ := Option.map_eq_some_iff.1 htrace
    simp only [Function.comp_apply, h.signalName (Board.device_mem_ids_of_mem_terminals ht)]
  trace? name hdevice := by
    rw [Board.trace?, h.terminal? hdevice, h.probes, Board.trace?, Option.bind_map]
    simp only [Function.comp_def, Probes.trace?_relabel h.injective]

end

/-- Sessions that are alike give the same answers to the same steps, and stay alike. -/
theorem afterAll {steps steps' : List Step} (h : Alike r g s s')
    (hsteps : List.Forall₂ (Step.Renamed r s.board.device? s'.board.device?) steps steps') :
    List.Forall₂ Answer.Same (s.answers steps) (s'.answers steps') ∧
      Alike r g (s.afterAll steps) (s'.afterAll steps') := by
  induction steps generalizing s s' steps' with
  | nil =>
    cases hsteps
    exact ⟨.nil, h⟩
  | cons step steps ih =>
    obtain ⟨step', steps', hstep, hrest, rfl⟩ := List.forall₂_cons_left_iff.1 hsteps
    obtain ⟨hanswer, hafter⟩ := h.take hstep
    rw [← device?_after s step, ← device?_after s' step'] at hrest
    obtain ⟨hanswers, hall⟩ := ih hafter hrest
    exact ⟨.cons hanswer hanswers, hall⟩

end Alike

/-! ## Counterparts of steps -/

theorem exists_notMem_names (names : NameTable) :
    ∃ word, word ∉ names.names ∧ '.' ∉ word.toList := by
  -- A word that is longer than all names together is none of them.
  let long := List.replicate ((names.names.map String.length).sum + 1) 'x'
  refine ⟨String.ofList long, fun hmem => ?_, ?_⟩
  · have hle := List.le_sum_of_mem (List.mem_map_of_mem (f := String.length) hmem)
    rw [String.length_ofList, List.length_replicate] at hle
    omega
  · rw [String.toList_ofList]
    exact fun hdot => absurd (List.eq_of_mem_replicate hdot) (by decide)

/-- Every step has a counterpart. -/
theorem Alike.exists_renamed {r : String → String} {g : NameId → NameId} {s s' : Session}
    (h : Alike r g s s') (step : Step) :
    ∃ step', step.Renamed r s.board.device? s'.board.device? step' := by
  cases step with
  | run cycles => exact ⟨_, .run cycles⟩
  | execute => exact ⟨_, .execute⟩
  | record => exact ⟨_, .record⟩
  | reset => exact ⟨_, .reset⟩
  | setSwitch id closed =>
    by_cases hid : ∃ name, s.board.device? name = some id
    · obtain ⟨name, hname⟩ := hid
      exact ⟨_, .setSwitch closed hname (h.device? hname)⟩
    · refine ⟨.setSwitch ⟨s'.board.names.size⟩ closed, .setAbsent closed (not_exists.1 hid) ?_⟩
      intro name hname
      have hlt := NameTable.index_lt_of_query? (Board.device?_eq_some_iff.1 hname).1
      exact absurd hlt (Nat.lt_irrefl _)
  | toggle name =>
    cases hname : s.board.device? (deviceOf name) with
    | some id => exact ⟨_, .toggle (by rw [hname]; rfl)⟩
    | none =>
      obtain ⟨word, hword, hdot⟩ := exists_notMem_names s'.board.names
      have hdevice : deviceOf word = word := by
        rw [deviceOf, Text.cutAt?_of_notMem hdot]
        rfl
      refine ⟨.toggle word, .toggleAbsent hname ?_⟩
      rw [hdevice, Board.device?, NameTable.query?_eq_none_iff.2 hword]
      rfl

/-! ## Loading -/

section
open Definition

variable {r f : String → String} {t : SyntaxTree} {source : String} {limits : Limits}

theorem load_of_derives (h : t.Derives source) (ht : t.WellFormed limits.lines) :
    (load limits source).2 = .ok { board := t.board limits.passes } := by
  have hread := readOnto_of_derives limits.passes h ht
  simp only [load, hread]
  rfl

/-- The devices of a session that has just been loaded are the parts of the definition. -/
theorem isSome_device?_board (ht : t.WellFormed limits.lines) (passLimit : Nat) (name : String) :
    ((t.board passLimit).device? name).isSome ↔ name ∈ t.layout.parts.map (·.name) := by
  have hids : (t.board passLimit).circuit.ids =
      t.layout.parts.map fun p => t.names.idOf p.name := Layout.ids_circuit _ _ _
  rw [Option.isSome_iff_exists]
  constructor
  · rintro ⟨id, hid⟩
    obtain ⟨hquery, hmem⟩ := Board.device?_eq_some_iff.1 hid
    rw [hids] at hmem
    obtain ⟨p, hp, rfl⟩ := List.mem_map.1 hmem
    exact List.mem_map.2 ⟨p, hp, NameTable.query?_inj (SyntaxTree.query?_of_mem_parts ht hp) hquery⟩
  · intro hname
    obtain ⟨p, hp, rfl⟩ := List.mem_map.1 hname
    refine ⟨_, Board.device?_eq_some_iff.2 ⟨SyntaxTree.query?_of_mem_parts ht hp, ?_⟩⟩
    rw [hids]
    exact List.mem_map_of_mem hp

/-- The sessions on a definition and on the one with other names are alike. -/
theorem exists_alike (hr : Renames r) (h : t.Derives source) (ht : t.WellFormed limits.lines)
    (hinj : Set.InjOn r {name | name ∈ t.layout.parts.map (·.name)}) :
    ∃ g, Alike r g { board := t.board limits.passes }
      { board := (t.rename r).board limits.passes } := by
  have ht' := ht.rename hinj
  have h' := h.rename hr
  have hnames : ∀ name ∈ t.layout.parts.map (·.name), name ∈ t.names.names :=
    List.forall_mem_map.2 fun p hp => ht.mem_names hp
  have hnames' : ∀ name ∈ t.layout.parts.map (·.name), r name ∈ (t.rename r).names.names := by
    refine List.forall_mem_map.2 fun p hp => ht'.mem_names (p := p.rename r) ?_
    rw [SyntaxTree.layout_rename]
    exact List.mem_map_of_mem hp
  let g := renumber r t.names (t.rename r).names (t.layout.parts.map (·.name))
  have hg : ∀ name ∈ t.layout.parts.map (·.name),
      g (t.names.idOf name) = (t.rename r).names.idOf (r name) :=
    fun _ hname => renumber_idOf hnames hname
  refine ⟨g, renumber_injective hnames' hinj, ?_, ?_, rfl, t.named_board h ht _, ?_⟩
  · show (t.rename r).layout.circuit (t.rename r).names limits.passes = _
    rw [SyntaxTree.layout_rename]
    exact Layout.circuit_rename hg ht.closed hinj limits.passes
  · show (t.rename r).layout.probes (t.rename r).names = _
    rw [SyntaxTree.layout_rename]
    exact Layout.probes_rename hg ht.closed
  · intro id hid name hquery
    have hids : id ∈ t.layout.parts.map fun p => t.names.idOf p.name :=
      Layout.ids_circuit t.layout t.names limits.passes ▸ hid
    obtain ⟨p, hp, rfl⟩ := List.mem_map.1 hids
    obtain rfl : p.name = name := NameTable.query?_inj (SyntaxTree.query?_of_mem_parts ht hp) hquery
    have hname : p.name ∈ t.layout.parts.map (·.name) := List.mem_map_of_mem hp
    rw [hg _ hname]
    exact ⟨NameTable.query?_of_mem_names (hnames' _ hname),
      dot_notMem_of_mem_names h' (hnames' _ hname)⟩

/-- The names of the devices are replaced, and all other words are left alone. -/
def newName (s : Session) (f : String → String) (name : String) : String :=
  if (s.board.device? name).isSome then f name else name

/-- **Labels.** The names of devices are only labels. An accepted text in which every device gets
another name, no two of them the same, is accepted again. Whatever is done in the two sessions, the
answers are the same, and so are the levels and, under the new names, the traces. -/
theorem renamed_session {s : Session} (hload : (load limits source).2 = .ok s)
    (hnames : ∀ name, (s.board.device? name).isSome → IsName (f name))
    (hinj : Set.InjOn f {name | (s.board.device? name).isSome}) :
    ∃ s', (load limits (renameSource (s.newName f) source)).2 = .ok s' ∧
      (∀ step : Step, ∃ step', step.Renamed (s.newName f) s.board.device? s'.board.device? step') ∧
      ∀ steps steps',
        List.Forall₂ (Step.Renamed (s.newName f) s.board.device? s'.board.device?) steps steps' →
          List.Forall₂ Answer.Same (s.answers steps) (s'.answers steps') ∧
            ShowsAs (s.newName f) (s.afterAll steps) (s'.afterAll steps') := by
  obtain ⟨t, h, ht, rfl⟩ := exists_tree_of_load hload
  have hdevices (name : String) := isSome_device?_board ht limits.passes name
  have hrenames : Renames (newName { board := t.board limits.passes } f) := by
    intro name
    unfold newName
    split
    · rename_i hdevice
      obtain ⟨p, hp, rfl⟩ := List.mem_map.1 ((hdevices name).1 hdevice)
      have hsymbol := ht.name_mem_symbols hp
      rw [← h.symbols, symbols_eq] at hsymbol
      exact .inr ⟨ofKeyword?_of_name_mem_symbolsAmong hsymbol, hnames _ hdevice⟩
    · exact .inl rfl
  have hinj' : Set.InjOn (newName { board := t.board limits.passes } f)
      {name | name ∈ t.layout.parts.map (·.name)} := by
    intro a ha b hb he
    have ha' := (hdevices a).2 ha
    have hb' := (hdevices b).2 hb
    rw [newName, if_pos ha', newName, if_pos hb'] at he
    exact hinj ha' hb' he
  obtain ⟨g, halike⟩ := exists_alike hrenames h ht hinj'
  refine ⟨_, load_of_derives (h.rename hrenames) (ht.rename hinj'), halike.exists_renamed,
    fun steps steps' hsteps => ?_⟩
  obtain ⟨hanswers, hall⟩ := halike.afterAll hsteps
  exact ⟨hanswers, hall.showsAs⟩

end

/-- The divider with a clock that is called like a heading and a flip-flop that is called like a
pin. -/
def namesakesText : String :=
  "[devices] devices = CLOCK(1); CLK = DTYPE;\n[conns] CLK.CLK = devices; " ++
    "CLK.DATA = CLK.QBAR;\n[monit] CLK.QBAR;"

def namesake (name : String) : String := if name = "CK" then "devices" else "CLK"

def namesakes : Session where
  board :=
    { names := ⟨["devices", "CLOCK", "CLK", "DTYPE", "conns", "DATA", "QBAR", "monit"]⟩
      circuit :=
        { devices :=
            [⟨⟨0⟩, .clock { halfPeriod := 1 }⟩,
              ⟨⟨2⟩, .dtype { clk := some ⟨⟨0⟩, .out⟩, data := some ⟨⟨2⟩, .qbar⟩ }⟩]
          passLimit := 20 }
      probes := ⟨[⟨⟨⟨2⟩, .qbar⟩, #[]⟩]⟩ }

theorem device?_divider {name : String} (h : (divider.board.device? name).isSome) :
    name = "CK" ∨ name = "FF" := by
  obtain ⟨id, hid⟩ := Option.isSome_iff_exists.1 h
  obtain ⟨hquery, hmem⟩ := Board.device?_eq_some_iff.1 hid
  have hplace := NameTable.getElem?_of_query? hquery
  have hids : id = ⟨1⟩ ∨ id = ⟨3⟩ := by simpa [divider, Circuit.ids] using hmem
  rcases hids with rfl | rfl
  · exact .inl (Option.some.inj hplace).symm
  · exact .inr (Option.some.inj hplace).symm

/-- The numbers of the devices are others, and one of the two probes is put on by a step. -/
theorem divider_renamed :
    (load {} dividerText).2 = .ok divider ∧
      Definition.renameSource (divider.newName namesake) dividerText = namesakesText ∧
      (load {} namesakesText).2 = .ok namesakes ∧
      List.Forall₂ Answer.Same
        (divider.answers [.toggle "FF.Q", .setSwitch ⟨1⟩ true, .run 3])
        (namesakes.answers [.toggle "CLK.Q", .setSwitch ⟨0⟩ true, .run 3]) ∧
      ShowsAs (divider.newName namesake)
        (divider.afterAll [.toggle "FF.Q", .setSwitch ⟨1⟩ true, .run 3])
        (namesakes.afterAll [.toggle "CLK.Q", .setSwitch ⟨0⟩ true, .run 3]) := by
  have htext : Definition.renameSource (divider.newName namesake) dividerText = namesakesText := by
    decide +kernel
  have hload : (load {} namesakesText).2 = .ok namesakes := by decide +kernel
  have hnames (name : String) (_ : (divider.board.device? name).isSome) :
      Definition.IsName (namesake name) := by
    unfold namesake
    split <;> exact ⟨by decide +kernel, by decide +kernel⟩
  have hinj : Set.InjOn namesake {name | (divider.board.device? name).isSome} := by
    intro a ha b hb he
    rcases device?_divider ha with rfl | rfl <;> rcases device?_divider hb with rfl | rfl
    · rfl
    · exact absurd he (by decide)
    · exact absurd he (by decide)
    · rfl
  obtain ⟨s', hload', -, hall⟩ := renamed_session load_divider hnames hinj
  rw [htext, hload] at hload'
  obtain rfl := Except.ok.inj hload'
  have htoggle : renameSignal (divider.newName namesake) "FF.Q" = "CLK.Q" := by decide +kernel
  have hclock : divider.board.device? "CK" = some ⟨1⟩ := by decide +kernel
  have hclock' : namesakes.board.device? (divider.newName namesake "CK") = some ⟨0⟩ := by
    decide +kernel
  refine ⟨load_divider, htext, hload, hall _ _ (.cons ?_ (.cons ?_ (.cons ?_ .nil)))⟩
  · exact htoggle ▸ .toggle (by decide +kernel)
  · exact .setSwitch true hclock hclock'
  · exact .run 3

end Session

end Breadboard
