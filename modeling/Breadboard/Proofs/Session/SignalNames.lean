import Breadboard.Proofs.Board.SignalNames
import Breadboard.Proofs.Session.Steps

/-!
# What signal names stand for

In a session on a definition, the outputs of the devices are known by the names that the definition
gives to them, one name for each output, and nothing else is a signal name. The names are a matter
of the definition alone: no step changes them.

* `Definition.SyntaxTree.map_signalName_board`: the names on the board of a definition.
* `Definition.SyntaxTree.named_board`: its devices have names of their own, without dots.
* `signalNames_address_outputs`: the main result, for every sequence of steps.
-/
namespace Breadboard

/-! ## The names of a definition -/

namespace Definition

/-- The names of the outputs of a part: those of the two pins of a flip-flop, and the name of the
part itself for the other kinds. -/
def Part.signalNames (p : Part) : List String :=
  match p.logic with
  | .dtype _ => [p.name ++ ".Q", p.name ++ ".QBAR"]
  | _ => [p.name]

/-- The names of all outputs, in the order of declaration. -/
def SyntaxTree.signalNames (t : SyntaxTree) : List String :=
  t.layout.parts.flatMap Part.signalNames

namespace SyntaxTree

variable {t : SyntaxTree} {source : String} {limit : Nat}

theorem query?_of_mem_parts (ht : t.WellFormed limit) {p : Part} (hp : p ∈ t.layout.parts) :
    t.names.query? p.name = some (t.names.idOf p.name) :=
  NameTable.query?_of_mem_names (ht.mem_names hp)

theorem map_signalName_board (ht : t.WellFormed limit) (passLimit : Nat) :
    (t.board passLimit).circuit.terminals.map (t.board passLimit).signalName =
      t.signalNames := by
  simp only [board, Layout.circuit, Circuit.terminals, List.flatMap_map, List.map_flatMap,
    signalNames]
  refine List.flatMap_congr fun p hp => ?_
  have hname : t.names.displayName (t.names.idOf p.name) = p.name :=
    NameTable.displayName_of_query? (query?_of_mem_parts ht hp)
  simp only [Device.terminals, Logic.outputPins_wired, List.map_map, Part.signalNames]
  cases p.logic with
  | gate | switch | clock => simp [Logic.outputPins, Board.signalName, OutputPin.name?, hname]
  | dtype ff =>
    have hpin (word : String) : s!"{p.name}.{word}" = p.name ++ ("." ++ word) :=
      String.append_assoc
    simp only [Logic.outputPins, Function.comp_apply, List.map_cons, List.map_nil,
      Board.signalName, OutputPin.name?, hname, hpin]
    rfl

/-- The devices of a definition have names of their own, without dots. -/
theorem named_board (h : t.Derives source) (ht : t.WellFormed limit) (passLimit : Nat) :
    (t.board passLimit).Named := by
  intro id hid
  rw [board, Layout.ids_circuit] at hid
  obtain ⟨p, hp, rfl⟩ := List.mem_map.1 hid
  exact ⟨p.name, query?_of_mem_parts ht hp, dot_notMem_of_mem_names h (ht.mem_names hp)⟩

end SyntaxTree

end Definition

namespace Session

variable {s s' : Session}

/-! ## Sessions -/

/-- The outputs of the devices go by the given names, one for each output in the order of the
devices, and no other text is a signal name. -/
structure Addressed (s : Session) (names : List String) : Prop where
  outputs : s.board.circuit.terminals.map s.board.signalName = names
  nodup : names.Nodup
  /-- Each name is on one of the two lists, and on that only once. -/
  lists : (s.board.monitored ++ s.board.unmonitored).Perm names
  monitored_sublist : s.board.monitored.Sublist names
  unmonitored_sublist : s.board.unmonitored.Sublist names
  /-- A name on the first list leads to the trace of its own output. -/
  trace_monitored : ∀ t ∈ s.board.circuit.terminals, s.board.signalName t ∈ s.board.monitored →
    ∃ samples, s.board.probes.trace? t = some samples ∧
      s.board.trace? (s.board.signalName t) = some samples
  trace_unmonitored : ∀ name ∈ s.board.unmonitored, s.board.trace? name = none
  /-- The probe of an output is put on or taken off under its name, and nothing else is changed. -/
  toggle : ∀ t ∈ s.board.circuit.terminals, ∃ probes,
    s.toggle (s.board.signalName t) =
        .ok (!s.board.probes.contains t, { s with board := { s.board with probes } }) ∧
      ∀ other, probes.trace? other =
        if other = t then
          if s.board.probes.contains t then none else some (Array.replicate s.cycles .blank)
        else s.board.probes.trace? other
  /-- A text that is on neither list is refused, and changes nothing. -/
  unknown : ∀ name, name ∉ s.board.monitored → name ∉ s.board.unmonitored →
    s.board.trace? name = none ∧ s.toggle name = .error (.unknownSignal name) ∧
      s.after (.toggle name) = s

theorem addressed_of_named (hnamed : s.board.Named) (hs : s.board.WellFormed) :
    Addressed s (s.board.circuit.terminals.map s.board.signalName) where
  outputs := rfl
  nodup := hnamed.nodup_signalNames hs.circuit.nodup
  lists := s.board.perm_signalNames
  monitored_sublist := s.board.monitored_sublist
  unmonitored_sublist := s.board.unmonitored_sublist
  trace_monitored t ht hmem := by
    obtain ⟨t', ht', he⟩ := List.mem_map.1 hmem
    obtain ⟨ht', hprobe⟩ := List.mem_filter.1 ht'
    obtain rfl : t' = t :=
      List.inj_on_of_nodup_map (hnamed.nodup_signalNames hs.circuit.nodup) ht' ht he
    rw [Probes.contains_eq_isSome_trace?] at hprobe
    obtain ⟨samples, hsamples⟩ := Option.isSome_iff_exists.1 hprobe
    exact ⟨samples, hsamples, by rw [hnamed.trace?_signalName ht, hsamples]⟩
  trace_unmonitored name hmem := by
    obtain ⟨t, ht, rfl⟩ := List.mem_map.1 hmem
    obtain ⟨ht, hprobe⟩ := List.mem_filter.1 ht
    rw [Probes.contains_eq_isSome_trace?] at hprobe
    rw [hnamed.trace?_signalName ht]
    simpa using hprobe
  toggle t ht := by
    obtain ⟨probes, htoggle, htraces⟩ := hnamed.toggle_signalName hs.circuit.nodup ht s.cycles
    exact ⟨probes, by rw [Session.toggle, htoggle]; rfl, htraces⟩
  unknown name hm hu := by
    have hname : name ∉ s.board.circuit.terminals.map s.board.signalName := by
      rw [← s.board.perm_signalNames.mem_iff, List.mem_append]
      exact fun h => h.elim hm hu
    have htoggle : s.toggle name = .error (.unknownSignal name) := by
      rw [Session.toggle, Board.toggle_of_notMem hs.circuit.nodup hname]
      rfl
    refine ⟨Board.trace?_of_notMem hs hname, htoggle, ?_⟩
    simp only [after, take, htoggle]

/-- **Signal names.** In a session on a definition, whatever is done in it, the outputs of the
devices go by the names that the definition gives to them. -/
theorem signalNames_address_outputs {limits : Limits} {source : String} {s₀ : Session}
    (hload : (load limits source).2 = .ok s₀) (steps : List Step) :
    ∃ t : Definition.SyntaxTree, t.Derives source ∧ t.WellFormed limits.lines ∧
      Addressed (s₀.afterAll steps) t.signalNames := by
  have hs₀ := wellFormed_of_load hload
  obtain ⟨t, ht, hwf, rfl⟩ := exists_tree_of_load hload
  have hleads := leads_afterAll { board := t.board limits.passes } steps
  have hbare := hleads.bare_eq hs₀
  have hids := (Circuit.sameShape_of_bare_eq hbare).1
  have hnamed := (t.named_board ht hwf limits.passes).of_names_eq hleads.names_eq hids
  refine ⟨t, ht, hwf, ?_⟩
  -- No step changes the names or the wiring, so the names of the outputs are those from the start.
  have hsignal : (Session.afterAll { board := t.board limits.passes } steps).board.signalName =
      (t.board limits.passes).signalName :=
    funext fun o => by simp only [Board.signalName, hleads.names_eq]
  have haddressed := addressed_of_named hnamed (hleads.wellFormed hs₀)
  rw [hsignal, Circuit.terminals_of_bare_eq hbare] at haddressed
  rwa [Definition.SyntaxTree.map_signalName_board hwf] at haddressed

/-- A flip-flop that changes with every pulse of a clock. -/
def dividerText : String :=
  "[devices] CK = CLOCK(1); FF = DTYPE;\n[conns] FF.CLK = CK; FF.DATA = FF.QBAR;\n[monit] FF.QBAR;"

def divider : Session where
  board :=
    { names := ⟨["devices", "CK", "CLOCK", "FF", "DTYPE", "conns", "CLK", "DATA", "QBAR", "monit"]⟩
      circuit :=
        { devices :=
            [⟨⟨1⟩, .clock { halfPeriod := 1 }⟩,
              ⟨⟨3⟩, .dtype { clk := some ⟨⟨1⟩, .out⟩, data := some ⟨⟨3⟩, .qbar⟩ }⟩]
          passLimit := 20 }
      probes := ⟨[⟨⟨⟨3⟩, .qbar⟩, #[]⟩]⟩ }

theorem load_divider : (load {} dividerText).2 = .ok divider := by
  decide +kernel

/-- With probes put on and taken off, and a step refused because a flip-flop has no output of its
own name, the three outputs go by the same names as before. -/
theorem divider_addressed :
    (load {} dividerText).2 = .ok divider ∧
      Addressed (divider.afterAll [.toggle "FF.Q", .run 1, .toggle "FF", .toggle "FF.QBAR"])
        ["CK", "FF.Q", "FF.QBAR"] := by
  obtain ⟨t, -, -, h⟩ := signalNames_address_outputs load_divider
    [.toggle "FF.Q", .run 1, .toggle "FF", .toggle "FF.QBAR"]
  have hnames : t.signalNames = ["CK", "FF.Q", "FF.QBAR"] := by
    rw [← h.outputs]
    decide +kernel
  exact ⟨load_divider, hnames ▸ h⟩

end Session

end Breadboard
