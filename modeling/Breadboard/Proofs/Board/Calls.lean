import Breadboard.Proofs.Board.Tables
import Breadboard.Proofs.Definition.Scanning

/-!
# Calls

What the tables are asked to do, call after call. A call leaves tables behind in any case, also when
it is refused, and what comes next goes on from there.

* `Holds.after`, `holds_ofCalls`: the tables hold the board that the operations make, after one call
  and after all of them.
* `Made.readOnto`: reading a text is a run of calls, so that nothing is missed by leaving readings
  out.
-/
namespace Breadboard.Tables

variable {ε α : Type} {x : Tables} {b : Board}

/-- What the tables are asked to do. -/
inductive Call where
  | addDevice (id : NameId) (kind : DeviceKind) (parameter : Option UInt32)
  | connect (source : Terminal) (target : NameId) (pin : InputPin)
  | setSwitch (id : NameId) (closed : Bool)
  | cycle
  | reset
  | addProbe (t : Terminal)
  | removeProbe (t : Terminal)
  | toggle (name : String) (blanks : Nat)
  | record
  | clearProbes
  | intern (name : String)

/-- The operation on boards that a call stands for. -/
def Call.operation : Call → Operation
  | addDevice id kind parameter => .addDevice id kind parameter
  | connect source target pin => .connect source target pin
  | setSwitch id closed => .setSwitch id closed
  | cycle => .cycle
  | reset => .reset
  | addProbe t => .addProbe t
  | removeProbe t => .removeProbe t
  | toggle name blanks => .toggle name blanks
  | record => .record
  | clearProbes => .clearProbes
  | intern name => .intern name

/-- The tables after a call, whether or not it has been refused. -/
def after (x : Tables) : Call → Tables
  | .addDevice id kind parameter => ((addDevice id kind parameter).outcome x).2
  | .connect source target pin => ((connect source target pin).outcome x).2
  | .setSwitch id closed => ((setSwitch id closed).outcome x).2
  | .cycle => { x with devices := x.circuit.cycle.2.devices.toArray }
  | .reset => { x with devices := x.devices.map (·.mapLogic Logic.reset) }
  | .addProbe t => ((addProbe t 0).outcome x).2
  | .removeProbe t => ((removeProbe (ε := ProbeError) t).outcome x).2
  | .toggle name blanks => ((toggle name blanks).outcome x).2
  | .record =>
    { x with traces := x.traces.map fun t trace => trace.push (Probes.sample x.circuit t) }
  | .clearProbes => { x with traces := x.traces.map fun _ _ => #[] }
  | .intern name => { x with names := (x.names.intern name).2 }

/-- The tables that calls make of empty ones. -/
def ofCalls (passLimit : Nat) (calls : List Call) : Tables := calls.foldl after { passLimit }

/-- The board after a function that may be refused. -/
def settle (b : Board) (result : Except ε (α × Board)) : Board :=
  match result with
  | .ok (_, b') => b'
  | .error _ => b

theorem Refines.holds {a : Action ε α} {result : Except ε (α × Board)}
    {effect : α → Tables → Prop} (ha : Refines a x result effect) (h : x.Holds b) :
    (a.outcome x).2.Holds (settle b result) := by
  cases result with
  | ok r =>
    obtain ⟨x', hx', hholds, -⟩ := ha
    rwa [hx']
  | error e =>
    rw [Refines] at ha
    rwa [ha]

/-- A call leads from tables and their board to tables and their board. -/
theorem Holds.after (h : x.Holds b) (c : Call) : (x.after c).Holds (c.operation.apply b) := by
  cases c with
  | addDevice id kind parameter =>
    have hholds := (refines_addDevice h id kind parameter).holds h
    rw [Call.operation, Operation.apply]
    cases hadd : b.circuit.addDevice id kind parameter <;> rw [hadd] at hholds <;> exact hholds
  | connect source target pin =>
    have hholds := (refines_connect h source target pin).holds h
    rw [Call.operation, Operation.apply]
    cases hconnect : b.circuit.connect source target pin <;> rw [hconnect] at hholds <;>
      exact hholds
  | setSwitch id closed =>
    have hholds := (refines_setSwitch h id closed).holds h
    rw [Call.operation, Operation.apply]
    cases hset : b.circuit.setSwitch id closed <;> rw [hset] at hholds <;> exact hholds
  | addProbe t =>
    have hholds := (refines_addProbe h t 0).holds h
    rw [Call.operation, Operation.apply]
    cases hadd : b.probes.add b.circuit t 0 <;> rw [hadd] at hholds <;> exact hholds
  | toggle name blanks =>
    have hholds := (refines_toggle h name blanks).holds h
    rw [Call.operation, Operation.apply]
    cases htoggle : b.toggle name blanks <;> rw [htoggle] at hholds <;> exact hholds
  | removeProbe t => exact h.remove t
  | cycle =>
    have hshape := Circuit.sameShape_cycle b.circuit
    have hlimit : b.circuit.cycle.2.passLimit = x.passLimit := by
      rw [hshape.2, ← h.circuit]; rfl
    exact h.replace (by rw [h.circuit, ← hlimit]) hshape.1
  | reset =>
    refine h.replace ?_ (Circuit.ids_mapLogic _ _)
    rw [Circuit.reset, Circuit.mapLogic, Array.toList_map, ← h.circuit]
    rfl
  | record =>
    refine h.traced fun t => ?_
    rw [Std.HashMap.getElem?_map, h.traces, Probes.trace?_record, h.circuit]
  | clearProbes =>
    refine h.traced fun t => ?_
    rw [Std.HashMap.getElem?_map, h.traces, Probes.trace?_clear]
  | intern name => exact ⟨(h.names.intern name).2, h.circuit, h.index, h.traces⟩

theorem Holds.foldl_after (h : x.Holds b) (calls : List Call) :
    (calls.foldl Tables.after x).Holds ((calls.map Call.operation).foldl Operation.apply b) := by
  induction calls generalizing x b with
  | nil => exact h
  | cons c calls ih => exact ih (h.after c)

theorem holds_ofCalls (passLimit : Nat) (calls : List Call) :
    (ofCalls passLimit calls).Holds (.ofOperations passLimit (calls.map Call.operation)) :=
  (holds_empty passLimit).foldl_after calls

/-! ### Readings -/

/-- Some calls make the second board of the first one. -/
def Made (b b' : Board) : Prop :=
  ∃ calls : List Call, (calls.map Call.operation).foldl Operation.apply b = b'

namespace Made

theorem refl (b : Board) : Made b b := ⟨[], rfl⟩

theorem trans {b b' b'' : Board} (h : Made b b') (h' : Made b' b'') : Made b b'' := by
  obtain ⟨calls, rfl⟩ := h
  obtain ⟨calls', rfl⟩ := h'
  exact ⟨calls ++ calls', by rw [List.map_append, List.foldl_append]⟩

theorem call (b : Board) (c : Call) : Made b (c.operation.apply b) := ⟨[c], rfl⟩

theorem lookup (b : Board) (words : List String) :
    Made b { b with names := (b.names.lookup words).2 } := by
  induction words generalizing b with
  | nil => exact .refl b
  | cons word words ih => exact (call b (.intern word)).trans (ih _)

/-- What a reader does to a draft, a call does to the board. -/
theorem change {d d' : Definition.Draft} (h : d.Change d') (names : NameTable) :
    Made ⟨names, d.circuit, d.probes⟩ ⟨names, d'.circuit, d'.probes⟩ := by
  cases h with
  | report => exact .refl _
  | @device id kind parameter circuit hadd =>
    refine ⟨[.addDevice id kind parameter], ?_⟩
    simp [Call.operation, Operation.apply, hadd]
  | @wire source target pin circuit hconnect =>
    refine ⟨[.connect source target pin], ?_⟩
    simp [Call.operation, Operation.apply, hconnect]
  | @probe t probes hadd =>
    refine ⟨[.addProbe t], ?_⟩
    simp [Call.operation, Operation.apply, hadd]

theorem leads {d d' : Definition.Draft} (h : d.Leads d') (names : NameTable) :
    Made ⟨names, d.circuit, d.probes⟩ ⟨names, d'.circuit, d'.probes⟩ :=
  h.preserves (P := fun e => Made ⟨names, d.circuit, d.probes⟩ ⟨names, e.circuit, e.probes⟩)
    (fun hchange hmade => hmade.trans (change hchange names)) (refl _)

/-- A text is read by calls: its words are entered, and its lines are carried out. -/
theorem readOnto (b : Board) (limit : Nat) (source : String) :
    Made b (Definition.readOnto b limit source).board := by
  have hnames : Made b { b with names := (Definition.scan b.names source.toList).names } := by
    have hscan : (Definition.scan b.names source.toList).names = _ :=
      Definition.names_tokensFrom b.names false _
    rw [hscan]
    exact lookup b _
  exact hnames.trans (leads (Definition.leads_draftOnto b limit source) _)

theorem apply (b : Board) (op : Operation) : Made b (op.apply b) := by
  cases op with
  | read limit source => exact readOnto b limit source
  | addDevice id kind parameter => exact call b (.addDevice id kind parameter)
  | connect source target pin => exact call b (.connect source target pin)
  | setSwitch id closed => exact call b (.setSwitch id closed)
  | cycle => exact call b .cycle
  | reset => exact call b .reset
  | addProbe t => exact call b (.addProbe t)
  | removeProbe t => exact call b (.removeProbe t)
  | toggle name blanks => exact call b (.toggle name blanks)
  | record => exact call b .record
  | clearProbes => exact call b .clearProbes
  | intern name => exact call b (.intern name)

theorem foldl_apply (b : Board) (ops : List Operation) : Made b (ops.foldl Operation.apply b) := by
  induction ops generalizing b with
  | nil => exact .refl b
  | cons op ops ih => exact (apply b op).trans (ih _)

end Made

end Breadboard.Tables
