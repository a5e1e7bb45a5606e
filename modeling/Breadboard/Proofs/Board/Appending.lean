import Breadboard.Proofs.Board.Operations
import Breadboard.Proofs.Definition.Tokens

/-!
# What reading leaves alone

A text may be read onto a board that has devices and probes already, also after an earlier text was
refused there. Reading puts everything at the end. A device that was there before may have the name
of a new one, but the new one is then refused, and the definition cannot refer to the old one.

* `Circuit.addDevice_append`, `Circuit.connect_append`, `Probes.add_append`: what is done to the
  devices behind those of another circuit is done to them alone.
* `Board.Extends`: a board with a circuit of its own behind what was there before.
* `readOnto_extends`: every reading extends the board in that way.
-/
namespace Breadboard

/-! ## A circuit behind another one -/

namespace Circuit

/-- The circuit with the devices of another one behind its own. -/
def append (c own : Circuit) : Circuit := { c with devices := c.devices ++ own.devices }

variable {c own : Circuit} {id : NameId}

@[simp]
theorem ids_append (c own : Circuit) : (c.append own).ids = c.ids ++ own.ids := by
  simp [append, ids]

theorem find?_append (c own : Circuit) (id : NameId) :
    (c.append own).find? id = (c.find? id).or (own.find? id) :=
  List.find?_append

theorem find?_append_of_notMem (h : id ∉ c.ids) :
    (c.append own).find? id = own.find? id := by
  rw [find?_append, find?_eq_none_iff.2 h, Option.none_or]

theorem hasTerminal_append {t : Terminal} (h : t.device ∉ c.ids) :
    (c.append own).hasTerminal t = own.hasTerminal t := by
  rw [hasTerminal, find?_append_of_notMem h, hasTerminal]

/-- A device behind the others is changed without a change to them. -/
theorem modify_append (h : id ∉ c.ids) (f : Logic → Logic) :
    (c.append own).modify id f = c.append (own.modify id f) := by
  have hkeep := map_modify_of_notMem f h
  simp only [modify, append, List.map_append, hkeep]

theorem addDevice_append {e : Circuit} {kind : DeviceKind} {parameter : Option UInt32}
    (h : (c.append own).addDevice id kind parameter = .ok e) :
    ∃ own', own.addDevice id kind parameter = .ok own' ∧ e = c.append own' ∧ id ∉ c.ids := by
  obtain ⟨hnew, l, hl, rfl⟩ := addDevice_eq_ok_iff.1 h
  rw [ids_append, List.mem_append, not_or] at hnew
  exact ⟨_, addDevice_eq_ok_iff.2 ⟨hnew.2, l, hl, rfl⟩, by simp [append], hnew.1⟩

theorem connect_append {e : Circuit} {source : Terminal} {pin : InputPin}
    (hsource : source.device ∉ c.ids) (htarget : id ∉ c.ids)
    (h : (c.append own).connect source id pin = .ok e) :
    ∃ own', own.connect source id pin = .ok own' ∧ e = c.append own' := by
  obtain ⟨hout, hin, rfl⟩ := connect_eq_ok_iff.1 h
  rw [hasTerminal_append hsource] at hout
  rw [find?_append_of_notMem htarget] at hin
  exact ⟨_, connect_eq_ok_iff.2 ⟨hout, hin, rfl⟩, modify_append htarget _⟩

end Circuit

namespace Probes

/-- The probes with others behind them. -/
def append (p added : Probes) : Probes := { probes := p.probes ++ added.probes }

variable {p added : Probes} {c own : Circuit} {t : Terminal}

theorem trace?_append {trace : Trace} (h : p.trace? t = some trace) :
    (p.append added).trace? t = some trace := by
  obtain ⟨probe, hprobe, rfl⟩ := Option.map_eq_some_iff.1 h
  rw [trace?, append, List.find?_append, hprobe]
  rfl

theorem add_append {q : Probes} {blanks : Nat} (ht : t.device ∉ c.ids)
    (h : (p.append added).add (c.append own) t blanks = .ok q) :
    ∃ added', added.add own t blanks = .ok added' ∧ q = p.append added' := by
  obtain ⟨hout, hnew, rfl⟩ := add_eq_ok_iff.1 h
  rw [Circuit.hasTerminal_append ht] at hout
  have hfree : added.contains t = false := by
    rw [contains, append, List.any_append, Bool.or_eq_false_iff] at hnew
    exact hnew.2
  exact ⟨_, add_eq_ok_iff.2 ⟨hout, hfree, rfl⟩, by simp [append]⟩

end Probes

/-! ## Boards -/

/-- The second board is the first one with more behind it: further names, a circuit of its own, and
probes on that. -/
structure Board.Extends (b : Board) (own : Circuit) (added : Probes) (after : Board) : Prop where
  names : b.names.names <+: after.names.names
  circuit : after.circuit = b.circuit.append own
  probes : after.probes = b.probes.append added
  /-- The new devices have new numbers. -/
  fresh : ∀ id ∈ own.ids, id ∉ b.circuit.ids
  /-- The new devices are driven by each other alone. -/
  wellFormed : own.WellFormed
  /-- The new probes sit on outputs of the new devices. -/
  sitOn : added.SitOn own
  blank : ∀ probe ∈ added.probes, probe.trace = #[]

namespace Board.Extends

variable {b after : Board} {own : Circuit} {added : Probes}

theorem query? (h : b.Extends own added after) {name : String} {id : NameId}
    (hid : b.names.query? name = some id) : after.names.query? name = some id :=
  NameTable.query?_of_isPrefix h.names hid

theorem find? (h : b.Extends own added after) {id : NameId} {d : Device}
    (hd : b.circuit.find? id = some d) : after.circuit.find? id = some d := by
  rw [h.circuit, Circuit.find?_append, hd, Option.some_or]

theorem trace? (h : b.Extends own added after) {t : Terminal} {trace : Trace}
    (ht : b.probes.trace? t = some trace) : after.probes.trace? t = some trace := by
  rw [h.probes]
  exact Probes.trace?_append ht

end Board.Extends

namespace Definition

variable {b : Board} {names : NameTable} {d d' : Draft}

/-- A draft behind what is on a board: the devices that the definition has declared are the new
ones. -/
def Draft.Behind (b : Board) (names : NameTable) (d : Draft) : Prop :=
  ∃ own added, d.declared = own.ids ∧
    b.Extends own added { names, circuit := d.circuit, probes := d.probes }

/-- A change to declared devices leaves alone what was on the board before. -/
theorem Draft.Behind.change (h : d.Behind b names) (hchange : Draft.OwnChange d d') :
    d'.Behind b names := by
  obtain ⟨own, added, hdeclared, hnames, hcircuit, hprobes, hfresh, hown, hsit, hblank⟩ := h
  dsimp only at hnames hcircuit hprobes
  rw [← hdeclared] at hfresh
  cases hchange with
  | report i =>
    exact ⟨own, added, hdeclared, hnames, hcircuit, hprobes, hdeclared ▸ hfresh, hown, hsit, hblank⟩
  | @device id _ _ circuit hadd =>
    rw [hcircuit] at hadd
    obtain ⟨own', hadd', rfl, hnew⟩ := Circuit.addDevice_append hadd
    have hids : own'.ids = own.ids ++ [id] := (Circuit.ids_addDevice hadd').1
    refine ⟨own', added, by rw [hdeclared, hids], hnames, rfl, hprobes, ?_, hown.addDevice hadd',
      hsit.mono fun _ => Circuit.hasTerminal_addDevice hadd', hblank⟩
    rw [hids, ← hdeclared]
    exact List.forall_mem_append.2 ⟨hfresh, List.forall_mem_singleton.2 hnew⟩
  | wire hsource htarget hconnect =>
    rw [hcircuit] at hconnect
    obtain ⟨own', hconnect', rfl⟩ :=
      Circuit.connect_append (hfresh _ hsource) (hfresh _ htarget) hconnect
    have hids : own'.ids = own.ids := by
      rw [Circuit.eq_modify_of_connect hconnect', Circuit.ids_modify]
    exact ⟨own', added, hids ▸ hdeclared, hnames, rfl, hprobes, hids ▸ hdeclared ▸ hfresh,
      hown.connect hconnect',
      hsit.mono fun t ht => by rwa [Circuit.hasTerminal_connect hconnect'], hblank⟩
  | probe ht hadd =>
    rw [hcircuit, hprobes] at hadd
    obtain ⟨added', hadd', rfl⟩ := Probes.add_append (hfresh _ ht) hadd
    refine ⟨own, added', hdeclared, hnames, hcircuit, rfl, hdeclared ▸ hfresh, hown,
      hsit.add hadd', ?_⟩
    obtain ⟨-, -, rfl⟩ := Probes.add_eq_ok_iff.1 hadd'
    exact List.forall_mem_append.2 ⟨hblank, List.forall_mem_singleton.2 rfl⟩

/-- **Reading only appends.** Whatever the text and the board that it is read onto, the names, the
devices and the probes that were there keep their place and everything that is in them. The new
devices are a circuit of their own: each has a number that no device had before, and whatever drives
one of them is an output of another new one. The new probes sit on outputs of the new devices and
have recorded nothing. -/
theorem readOnto_extends (b : Board) (limit : Nat) (source : String) :
    let after := (readOnto b limit source).board
    ∃ own added, b.Extends own added after ∧
      after.circuit.devices = b.circuit.devices ++ own.devices ∧
      after.probes.probes = b.probes.probes ++ added.probes ∧
      (∀ name id, b.names.query? name = some id → after.names.query? name = some id) ∧
      (∀ id device, b.circuit.find? id = some device → after.circuit.find? id = some device) ∧
      (∀ t trace, b.probes.trace? t = some trace → after.probes.trace? t = some trace) ∧
      (∀ device ∈ own.devices, ∀ pin t, (pin, some t) ∈ device.inputs →
        ∃ driver ∈ own.devices, driver.id = t.device ∧ driver.hasOutput t.pin = true) ∧
      ∀ probe ∈ added.probes, probe.trace = #[] ∧
        ∃ device ∈ own.devices, device.id = probe.terminal.device ∧
          device.hasOutput probe.terminal.pin = true := by
  intro after
  have hstart : Draft.Behind b after.names { circuit := b.circuit, probes := b.probes } :=
    ⟨.empty b.circuit.passLimit, .empty, rfl, names_isPrefix_tokensFrom _ _ _,
      by simp [Circuit.append, Circuit.empty], by simp [Probes.append, Probes.empty],
      fun _ hid => absurd hid List.not_mem_nil, Circuit.wellFormed_empty _, .empty _,
      fun _ hprobe => absurd hprobe List.not_mem_nil⟩
  obtain ⟨own, added, -, hextends⟩ :=
    (builds_readFile limit _ _ _).preserves (fun hchange h => h.change hchange) hstart
  have houtput : ∀ t, own.hasTerminal t = true →
      ∃ device ∈ own.devices, device.id = t.device ∧ device.hasOutput t.pin = true := by
    intro t ht
    obtain ⟨device, hdevice, hpin⟩ := Circuit.hasTerminal_iff.1 ht
    exact ⟨device, List.mem_of_find?_eq_some hdevice, Circuit.id_of_find? hdevice,
      List.contains_iff_mem.2 hpin⟩
  exact ⟨own, added, hextends, congrArg Circuit.devices hextends.circuit,
    congrArg Probes.probes hextends.probes, fun _ _ => hextends.query?, fun _ _ => hextends.find?,
    fun _ _ => hextends.trace?,
    fun device hdevice pin t hin => houtput t (hextends.wellFormed.drivers device hdevice pin t hin),
    fun probe hprobe => ⟨hextends.blank probe hprobe, houtput _ (hextends.sitOn.outputs probe hprobe)⟩⟩

end Definition

end Breadboard
