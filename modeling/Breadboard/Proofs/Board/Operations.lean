import Breadboard.Proofs.Circuit.WellFormed
import Breadboard.Proofs.Definition.Changes

/-!
# Operations on boards

Everything that can be done to a board, in any order, keeps it well-formed: its circuit is
well-formed, and its probes sit on outputs of the circuit, at most one on each. That includes
reading a text, however wrong it is, and cycles that do not come to rest.

* `WellFormed.apply`: every operation keeps a board well-formed.
* `ids_apply`: the devices of a board are the ones that operations have declared.
* `wellFormed_ofOperations`: the two for whole runs, and what follows from them.
-/
namespace Breadboard

/-! ## Probes -/

namespace Probes

/-- The probes sit on outputs of the circuit, at most one on each. -/
structure SitOn (p : Probes) (c : Circuit) : Prop where
  nodup : (p.probes.map (·.terminal)).Nodup
  outputs : ∀ probe ∈ p.probes, c.hasTerminal probe.terminal = true

variable {p p' : Probes} {c c' : Circuit} {t : Terminal}

theorem contains_iff : p.contains t = true ↔ t ∈ p.probes.map (·.terminal) := by
  simp [contains]

theorem add_eq_ok_iff {blanks : Nat} :
    p.add c t blanks = .ok p' ↔ c.hasTerminal t = true ∧ p.contains t = false ∧
      p' = { probes := p.probes ++ [⟨t, Array.replicate blanks .blank⟩] } := by
  unfold add Circuit.hasTerminal
  cases c.find? t.device with
  | none => simp
  | some d =>
    by_cases hout : d.hasOutput t.pin
    · cases p.contains t <;> simp [hout, eq_comm]
    · simp [hout]

theorem trace?_add {blanks : Nat} (hadd : p.add c t blanks = .ok p') (other : Terminal) :
    p'.trace? other =
      if other = t then some (Array.replicate blanks .blank) else p.trace? other := by
  obtain ⟨-, hnew, rfl⟩ := add_eq_ok_iff.1 hadd
  rw [contains_eq_isSome_trace?, Option.isSome_eq_false_iff, Option.isNone_iff_eq_none, trace?,
    Option.map_eq_none_iff] at hnew
  simp only [trace?, List.find?_append]
  by_cases hother : other = t
  · subst hother
    simp [hnew]
  · have hne : (t == other) = false := by simpa using fun he : t = other => hother he.symm
    simp [hother, hne]

namespace SitOn

theorem empty (c : Circuit) : Probes.empty.SitOn c :=
  ⟨List.nodup_nil, fun _ hp => absurd hp List.not_mem_nil⟩

theorem mono (h : p.SitOn c) (hc : ∀ t, c.hasTerminal t = true → c'.hasTerminal t = true) :
    p.SitOn c' :=
  ⟨h.nodup, fun probe hp => hc _ (h.outputs probe hp)⟩

theorem of_bare_eq (h : p.SitOn c) (hb : c'.bare = c.bare) : p.SitOn c' :=
  h.mono fun t ht => by rwa [Circuit.hasTerminal_of_bare_eq hb]

/-- Probes with other traces sit on the same outputs. -/
theorem of_terminals_eq (h : p.SitOn c)
    (he : p'.probes.map (·.terminal) = p.probes.map (·.terminal)) : p'.SitOn c := by
  refine ⟨he ▸ h.nodup, fun probe hp => ?_⟩
  have hmem : probe.terminal ∈ p.probes.map (·.terminal) := he ▸ List.mem_map_of_mem hp
  obtain ⟨probe', hp', hterminal⟩ := List.mem_map.1 hmem
  rw [← hterminal]
  exact h.outputs probe' hp'

theorem add {blanks : Nat} (h : p.SitOn c) (hadd : p.add c t blanks = .ok p') : p'.SitOn c := by
  obtain ⟨hout, hnew, rfl⟩ := add_eq_ok_iff.1 hadd
  refine ⟨?_, fun probe hp => ?_⟩
  · rw [List.map_append, List.map_singleton, List.nodup_append']
    refine ⟨h.nodup, List.nodup_singleton t, fun s hs hs' => ?_⟩
    rw [List.mem_singleton.1 hs', ← contains_iff, hnew] at hs
    cases hs
  · rcases List.mem_append.1 hp with hp | hp
    · exact h.outputs probe hp
    · rw [List.mem_singleton.1 hp]
      exact hout

theorem remove (h : p.SitOn c) (t : Terminal) : (p.remove t).SitOn c :=
  ⟨h.nodup.sublist (List.filter_sublist.map _),
    fun probe hp => h.outputs probe (List.mem_of_mem_filter hp)⟩

theorem record (h : p.SitOn c) (c' : Circuit) : (p.record c').SitOn c :=
  h.of_terminals_eq (by simp [Probes.record, Function.comp_def])

theorem clear (h : p.SitOn c) : p.clear.SitOn c :=
  h.of_terminals_eq (by simp [Probes.clear, Function.comp_def])

theorem trace?_eq_some_iff {trace : Trace} (h : p.SitOn c) :
    p.trace? t = some trace ↔ ⟨t, trace⟩ ∈ p.probes := by
  constructor
  · intro ht
    obtain ⟨probe, hprobe, rfl⟩ := Option.map_eq_some_iff.1 ht
    have hterminal : probe.terminal = t := by simpa using List.find?_some hprobe
    subst hterminal
    exact List.mem_of_find?_eq_some hprobe
  · intro hp
    unfold trace?
    cases hfind : p.probes.find? (·.terminal == t) with
    | none => simpa using List.find?_eq_none.1 hfind _ hp
    | some probe =>
      have hterminal : probe.terminal = t := by simpa using List.find?_some hfind
      have hprobe := List.mem_of_find?_eq_some hfind
      rw [List.inj_on_of_nodup_map h.nodup hprobe hp hterminal, Option.map_some]

theorem mem_traces_iff {trace : Trace} (h : p.SitOn c) (hn : c.ids.Nodup) :
    (t, trace) ∈ p.traces c ↔ ⟨t, trace⟩ ∈ p.probes := by
  rw [← h.trace?_eq_some_iff]
  simp only [traces, List.mem_filterMap, Option.map_eq_some_iff, Prod.mk.injEq]
  constructor
  · rintro ⟨t', -, trace', htrace, rfl, rfl⟩
    exact htrace
  · intro htrace
    have hout := h.outputs _ (h.trace?_eq_some_iff.1 htrace)
    exact ⟨t, (Circuit.mem_terminals_iff hn).2 hout, trace, htrace, rfl, rfl⟩

/-- The probed outputs of the circuit are those that the probes sit on. -/
theorem perm_terminals (h : p.SitOn c) (hn : c.ids.Nodup) :
    (c.terminals.filter p.contains).Perm (p.probes.map (·.terminal)) := by
  refine (List.perm_ext_iff_of_nodup ((Circuit.nodup_terminals hn).filter _) h.nodup).2 fun t => ?_
  rw [List.mem_filter, contains_iff, Circuit.mem_terminals_iff hn]
  refine ⟨And.right, fun ht => ⟨?_, ht⟩⟩
  obtain ⟨probe, hp, rfl⟩ := List.mem_map.1 ht
  exact h.outputs probe hp

/-- A probe that is in place sits on an output, and so has a level to record. -/
theorem exists_output? {trace : Trace} (h : p.SitOn c) (ht : p.trace? t = some trace) :
    ∃ level, c.output? t = some level := by
  obtain ⟨probe, hprobe, -⟩ := Option.map_eq_some_iff.1 ht
  have hterminal : probe.terminal = t := by simpa using List.find?_some hprobe
  have hout := h.outputs probe (List.mem_of_find?_eq_some hprobe)
  rw [hterminal] at hout
  exact Circuit.exists_output?_of_hasTerminal hout

end SitOn

end Probes

/-! ## Boards -/

namespace Board

structure WellFormed (b : Board) : Prop where
  circuit : b.circuit.WellFormed
  probes : b.probes.SitOn b.circuit

theorem wellFormed_empty (passLimit : Nat) : (Board.empty passLimit).WellFormed :=
  ⟨Circuit.wellFormed_empty passLimit, .empty _⟩

section
variable {b : Board} {name : String} {t : Terminal}

theorem unknown_or_exists_output (b : Board) (name : String) :
    (∀ t, b.terminal? name = some t → b.circuit.hasTerminal t = false) ∨
      ∃ t, b.terminal? name = some t ∧ b.circuit.hasTerminal t = true := by
  cases ht : b.terminal? name with
  | none => exact .inl (by simp)
  | some t => cases hout : b.circuit.hasTerminal t <;> simp [hout]

theorem toggle_of_unknown (h : ∀ t, b.terminal? name = some t → b.circuit.hasTerminal t = false)
    (blanks : Nat) : b.toggle name blanks = .error (.unknownSignal name) := by
  unfold toggle
  cases ht : b.terminal? name with
  | none => rfl
  | some t => simp [h t ht]

theorem toggle_of_probed (ht : b.terminal? name = some t) (hout : b.circuit.hasTerminal t = true)
    (hon : b.probes.contains t = true) (blanks : Nat) :
    b.toggle name blanks = .ok (false, { b with probes := b.probes.remove t }) := by
  simp [toggle, ht, hout, hon]

theorem toggle_of_unprobed (ht : b.terminal? name = some t)
    (hout : b.circuit.hasTerminal t = true) (hoff : b.probes.contains t = false) (blanks : Nat) :
    b.toggle name blanks =
      .ok (true, { b with
        probes := ⟨b.probes.probes ++ [⟨t, Array.replicate blanks .blank⟩]⟩ }) := by
  have hadd : b.probes.add b.circuit t blanks = .ok _ := Probes.add_eq_ok_iff.2 ⟨hout, hoff, rfl⟩
  simp [toggle, ht, hout, hoff, hadd, Except.map]

end

/-- A signal is toggled where its name stands for an output: the probe there is taken off, or a
new one put on. -/
theorem toggle_cases {b b' : Board} {name : String} {blanks : Nat} {probed : Bool}
    (h : b.toggle name blanks = .ok (probed, b')) :
    ∃ t, b.terminal? name = some t ∧ b.circuit.hasTerminal t = true ∧
      (probed = false ∧ b.probes.contains t = true ∧
          b' = { b with probes := b.probes.remove t } ∨
        probed = true ∧ b.probes.contains t = false ∧
          ∃ probes, b.probes.add b.circuit t blanks = .ok probes ∧ b' = { b with probes }) := by
  rcases b.unknown_or_exists_output name with hnone | ⟨t, ht, hout⟩
  · rw [toggle_of_unknown hnone] at h
    cases h
  refine ⟨t, ht, hout, ?_⟩
  cases hprobe : b.probes.contains t with
  | true =>
    rw [toggle_of_probed ht hout hprobe] at h
    cases h
    exact .inl ⟨rfl, rfl, rfl⟩
  | false =>
    rw [toggle_of_unprobed ht hout hprobe] at h
    cases h
    exact .inr ⟨rfl, rfl, _, Probes.add_eq_ok_iff.2 ⟨hout, hprobe, rfl⟩, rfl⟩

theorem WellFormed.toggle {b b' : Board} {name : String} {blanks : Nat} {probed : Bool}
    (h : b.WellFormed) (ht : b.toggle name blanks = .ok (probed, b')) : b'.WellFormed := by
  obtain ⟨t, -, -, ⟨-, -, rfl⟩ | ⟨-, -, probes, hadd, rfl⟩⟩ := toggle_cases ht
  · exact ⟨h.circuit, h.probes.remove t⟩
  · exact ⟨h.circuit, h.probes.add hadd⟩

end Board

/-! ## Reading -/

namespace Definition

def draftOnto (b : Board) (limit : Nat) (source : String) : Draft :=
  let scanned := scan b.names source.toList
  readFile limit scanned.tokens scanned.finish { circuit := b.circuit, probes := b.probes }

/-- The numbers of the devices that a text declares when it is read onto a board. -/
def declaredOnto (b : Board) (limit : Nat) (source : String) : List NameId :=
  (draftOnto b limit source).declared

variable {b : Board} {limit : Nat} {source : String}

theorem leads_draftOnto (b : Board) (limit : Nat) (source : String) :
    Draft.Leads { circuit := b.circuit, probes := b.probes } (draftOnto b limit source) :=
  (builds_readFile _ _ _ _).leads

/-- Whatever readers do, a draft that is well-formed remains so. -/
theorem Draft.Leads.wellFormed {d d' : Draft} (h : d.Leads d') (hc : d.circuit.WellFormed)
    (hp : d.probes.SitOn d.circuit) :
    d'.circuit.WellFormed ∧ d'.probes.SitOn d'.circuit := by
  refine h.preserves (P := fun d => d.circuit.WellFormed ∧ d.probes.SitOn d.circuit)
    (fun {d d'} hchange ⟨hc, hp⟩ => ?_) ⟨hc, hp⟩
  cases hchange with
  | report => exact ⟨hc, hp⟩
  | device hadd => exact ⟨hc.addDevice hadd, hp.mono fun _ => Circuit.hasTerminal_addDevice hadd⟩
  | wire hconnect =>
    exact ⟨hc.connect hconnect, hp.mono fun t ht => by
      rwa [Circuit.hasTerminal_connect hconnect]⟩
  | probe hadd => exact ⟨hc, hp.add hadd⟩

theorem wellFormed_readOnto (h : b.WellFormed) (limit : Nat) (source : String) :
    (readOnto b limit source).board.WellFormed := by
  obtain ⟨hc, hp⟩ := (leads_draftOnto b limit source).wellFormed h.circuit h.probes
  exact ⟨hc, hp⟩

theorem ids_readOnto (b : Board) (limit : Nat) (source : String) :
    (readOnto b limit source).board.circuit.ids = b.circuit.ids ++ declaredOnto b limit source := by
  obtain ⟨new, hids, hdeclared⟩ := (leads_draftOnto b limit source).ids_eq
  rw [List.nil_append] at hdeclared
  rw [declaredOnto, hdeclared]
  exact hids

end Definition

/-! ## Operations -/

/-- What can be done to a board. -/
inductive Operation where
  | addDevice (id : NameId) (kind : DeviceKind) (parameter : Option UInt32)
  | connect (source : Terminal) (target : NameId) (pin : InputPin)
  | setSwitch (id : NameId) (closed : Bool)
  | cycle
  | reset
  | addProbe (t : Terminal)
  | removeProbe (t : Terminal)
  | toggle (name : String) (blanks : Nat)
  | record
  | clearProbes
  | intern (name : String)
  | read (limit : Nat) (source : String)

namespace Operation

/-- The board after an operation. One that is refused changes nothing; a cycle that does not come
to rest leaves the circuit as far as it got. -/
def apply (b : Board) : Operation → Board
  | addDevice id kind parameter =>
    match b.circuit.addDevice id kind parameter with
    | .ok circuit => { b with circuit }
    | .error _ => b
  | connect source target pin =>
    match b.circuit.connect source target pin with
    | .ok circuit => { b with circuit }
    | .error _ => b
  | setSwitch id closed =>
    match b.circuit.setSwitch id closed with
    | .ok circuit => { b with circuit }
    | .error _ => b
  | cycle => { b with circuit := b.circuit.cycle.2 }
  | reset => { b with circuit := b.circuit.reset }
  | addProbe t =>
    match b.probes.add b.circuit t 0 with
    | .ok probes => { b with probes }
    | .error _ => b
  | removeProbe t => { b with probes := b.probes.remove t }
  | toggle name blanks =>
    match b.toggle name blanks with
    | .ok (_, b') => b'
    | .error _ => b
  | record => b.record
  | clearProbes => { b with probes := b.probes.clear }
  | intern name => { b with names := (b.names.intern name).2 }
  | read limit source => (Definition.readOnto b limit source).board

/-- The numbers of the devices that an operation adds to a board. -/
def declares (b : Board) : Operation → List NameId
  | addDevice id kind parameter =>
    match b.circuit.addDevice id kind parameter with
    | .ok _ => [id]
    | .error _ => []
  | read limit source => Definition.declaredOnto b limit source
  | _ => []

/-- The numbers of the devices that operations add to a board, one after the other. -/
def declared (b : Board) : List Operation → List NameId
  | [] => []
  | op :: ops => op.declares b ++ declared (op.apply b) ops

end Operation

namespace Board

variable {b : Board}

theorem WellFormed.apply (h : b.WellFormed) (op : Operation) : (op.apply b).WellFormed := by
  cases op with
  | addDevice id kind parameter =>
    simp only [Operation.apply]
    split
    · rename_i hadd
      exact ⟨h.circuit.addDevice hadd, h.probes.mono fun _ => Circuit.hasTerminal_addDevice hadd⟩
    · exact h
  | connect source target pin =>
    simp only [Operation.apply]
    split
    · rename_i hconnect
      exact ⟨h.circuit.connect hconnect, h.probes.mono fun t ht => by
        rwa [Circuit.hasTerminal_connect hconnect]⟩
    · exact h
  | setSwitch id closed =>
    simp only [Operation.apply]
    split
    · rename_i hset
      exact ⟨h.circuit.setSwitch hset,
        h.probes.of_bare_eq (Circuit.bare_setSwitch h.circuit.nodup hset)⟩
    · exact h
  | cycle => exact ⟨h.circuit.cycle, h.probes.of_bare_eq (Circuit.bare_cycle _)⟩
  | reset => exact ⟨h.circuit.reset, h.probes.of_bare_eq (Circuit.bare_reset _)⟩
  | addProbe t =>
    simp only [Operation.apply]
    split
    · rename_i hadd
      exact ⟨h.circuit, h.probes.add hadd⟩
    · exact h
  | removeProbe t => exact ⟨h.circuit, h.probes.remove t⟩
  | toggle name blanks =>
    simp only [Operation.apply]
    split
    · rename_i htoggle
      exact h.toggle htoggle
    · exact h
  | record => exact ⟨h.circuit, h.probes.record _⟩
  | clearProbes => exact ⟨h.circuit, h.probes.clear⟩
  | intern name => exact ⟨h.circuit, h.probes⟩
  | read limit source => exact Definition.wellFormed_readOnto h limit source

theorem ids_apply (b : Board) (op : Operation) :
    (op.apply b).circuit.ids = b.circuit.ids ++ op.declares b := by
  cases op with
  | addDevice id kind parameter =>
    simp only [Operation.apply, Operation.declares]
    split
    · rename_i hadd
      exact (Circuit.ids_addDevice hadd).1
    · rw [List.append_nil]
  | connect source target pin =>
    simp only [Operation.apply, Operation.declares, List.append_nil]
    split
    · rename_i hconnect
      rw [Circuit.eq_modify_of_connect hconnect, Circuit.ids_modify]
    · rfl
  | setSwitch id closed =>
    simp only [Operation.apply, Operation.declares, List.append_nil]
    split
    · rename_i hset
      rw [(Circuit.setSwitch_eq_ok_iff.1 hset).2, Circuit.ids_modify]
    · rfl
  | cycle =>
    simp only [Operation.apply, Operation.declares, List.append_nil]
    exact (Circuit.sameShape_cycle _).1
  | reset =>
    simp only [Operation.apply, Operation.declares, List.append_nil]
    exact Circuit.ids_mapLogic _ _
  | addProbe t =>
    simp only [Operation.apply, Operation.declares, List.append_nil]
    split <;> rfl
  | toggle name blanks =>
    simp only [Operation.apply, Operation.declares, List.append_nil]
    split
    · rename_i htoggle
      obtain ⟨t, -, -, ⟨-, -, rfl⟩ | ⟨-, -, probes, -, rfl⟩⟩ := toggle_cases htoggle <;> rfl
    · rfl
  | removeProbe | record | clearProbes | intern => exact (List.append_nil _).symm
  | read limit source => exact Definition.ids_readOnto b limit source

/-! ## Runs -/

/-- The board that operations make of an empty one. -/
def ofOperations (passLimit : Nat) (ops : List Operation) : Board :=
  ops.foldl Operation.apply (.empty passLimit)

theorem WellFormed.foldl_apply (h : b.WellFormed) (ops : List Operation) :
    (ops.foldl Operation.apply b).WellFormed := by
  induction ops generalizing b with
  | nil => exact h
  | cons op ops ih => exact ih (h.apply op)

theorem ids_foldl_apply (b : Board) (ops : List Operation) :
    (ops.foldl Operation.apply b).circuit.ids = b.circuit.ids ++ Operation.declared b ops := by
  induction ops generalizing b with
  | nil => simp [Operation.declared]
  | cons op ops ih => rw [List.foldl_cons, ih, ids_apply, List.append_assoc, Operation.declared]

/-- What never goes wrong on a board. -/
structure Sound (b : Board) : Prop where
  /-- No clock counts past what fits into 32 bits. -/
  counts : ∀ d ∈ b.circuit.devices, ∀ k, d.logic = .clock k →
    k.counter.toNat + 1 < UInt32.size
  /-- An input that is driven reads the level of an output. That holds in every state of the
  circuit, and so in all those that a cycle goes through. -/
  reads : ∀ c : Circuit, c.bare = b.circuit.bare → ∀ d ∈ c.devices, ∀ pin t,
    (pin, some t) ∈ d.inputs → ∃ level, c.output? t = some level
  /-- The edges of the graph join nodes of the graph. -/
  edges : ∀ names, ∀ e ∈ (b.circuit.topology names).edges,
    e.source < (b.circuit.topology names).nodes.length ∧
      e.target < (b.circuit.topology names).nodes.length
  /-- A recording appends the level of its output to every trace, and no blank. -/
  records : ∀ t trace, b.probes.trace? t = some trace →
    ∃ level, b.circuit.output? t = some level ∧
      b.record.probes.trace? t = some (trace.push (.ofLevel level))

theorem WellFormed.sound (h : b.WellFormed) : b.Sound where
  counts _ hd _ hk := h.circuit.counter_lt hd hk
  reads _ hb _ hd _ _ hin := h.circuit.exists_output?_of_bare_eq hb hd hin
  edges names _ he := h.circuit.edge_lt names he
  records t trace ht := by
    obtain ⟨level, hlevel⟩ := h.probes.exists_output? ht
    refine ⟨level, hlevel, ?_⟩
    rw [Board.record, Probes.trace?_record, ht, Option.map_some, Probes.sample, hlevel]
    rfl

/-- **Well-formedness.** Whatever is done to an empty board, in whatever order and with whatever
success, the board is well-formed and nothing goes wrong on it. Its devices are the ones that have
been declared, each with a number of its own under which it is found. -/
theorem wellFormed_ofOperations (passLimit : Nat) (ops : List Operation) :
    (ofOperations passLimit ops).WellFormed ∧ (ofOperations passLimit ops).Sound ∧
      (ofOperations passLimit ops).circuit.ids = Operation.declared (.empty passLimit) ops ∧
      ∀ id,
        (id ∈ Operation.declared (.empty passLimit) ops →
          ∃ d ∈ (ofOperations passLimit ops).circuit.devices, d.id = id ∧
            (ofOperations passLimit ops).circuit.find? id = some d) ∧
        (id ∉ Operation.declared (.empty passLimit) ops →
          (ofOperations passLimit ops).circuit.find? id = none) := by
  have hwf : (ofOperations passLimit ops).WellFormed :=
    (wellFormed_empty passLimit).foldl_apply ops
  have hids : (ofOperations passLimit ops).circuit.ids =
      Operation.declared (.empty passLimit) ops := ids_foldl_apply (.empty passLimit) ops
  refine ⟨hwf, hwf.sound, hids, fun id => ⟨fun hid => ?_, fun hid => ?_⟩⟩
  · rw [← hids] at hid
    obtain ⟨d, hd, hdid⟩ := List.mem_map.1 hid
    exact ⟨d, hd, hdid, (Circuit.find?_eq_some_iff hwf.circuit.nodup).2 ⟨hd, hdid⟩⟩
  · rwa [← hids, ← Circuit.find?_eq_none_iff] at hid

end Board

end Breadboard
