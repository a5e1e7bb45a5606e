import Breadboard.Proofs.Definition.Linking

/-!
# The graph of a board

The graph of a circuit is faithful to it, whatever has been done to the board, and in particular to
all the connections that have been made: by connecting inputs one by one, or by reading texts, also
such texts as are refused in the end.

* `perm_links_apply`: an operation keeps the connections that are there and adds those that it makes.
* `topology_ofOperations`: the main result, for every board that operations can make.
-/
namespace Breadboard

namespace Operation

/-- The connections that an operation makes on a board. -/
def connects (b : Board) : Operation → List Link
  | connect source target pin => b.circuit.linked source target pin
  | read limit source => Definition.linksOnto b limit source
  | _ => []

/-- The connections that operations make on a board, one after the other. -/
def connected (b : Board) : List Operation → List Link
  | [] => []
  | op :: ops => op.connects b ++ connected (op.apply b) ops

end Operation

namespace Board

variable {b : Board}

/-- An operation keeps the connections that are there and adds those that it makes. -/
theorem WellFormed.perm_links_apply (h : b.WellFormed) (op : Operation) :
    (op.apply b).circuit.links.Perm (b.circuit.links ++ op.connects b) := by
  have hn := h.circuit.nodup
  cases op with
  | addDevice id kind parameter =>
    simp only [Operation.apply, Operation.connects, List.append_nil]
    split
    · rename_i hadd
      exact .of_eq (Circuit.links_addDevice hadd)
    · exact .refl _
  | connect source target pin =>
    simp only [Operation.apply, Operation.connects, Circuit.linked]
    cases hconnect : b.circuit.connect source target pin with
    | ok circuit => exact Circuit.perm_links_connect hn hconnect
    | error e => exact .of_eq (List.append_nil _).symm
  | setSwitch id closed =>
    simp only [Operation.apply, Operation.connects, List.append_nil]
    split
    · rename_i hset
      exact .of_eq (Circuit.links_of_bare_eq (Circuit.bare_setSwitch hn hset))
    · exact .refl _
  | cycle =>
    simp only [Operation.connects, List.append_nil]
    exact .of_eq (Circuit.links_of_bare_eq (Circuit.bare_cycle _))
  | reset =>
    simp only [Operation.connects, List.append_nil]
    exact .of_eq (Circuit.links_of_bare_eq (Circuit.bare_reset _))
  | addProbe t =>
    simp only [Operation.apply, Operation.connects, List.append_nil]
    split <;> exact .refl _
  | toggle name blanks =>
    simp only [Operation.apply, Operation.connects, List.append_nil]
    split
    · rename_i htoggle
      obtain ⟨t, -, -, ⟨-, -, rfl⟩ | ⟨-, -, probes, -, rfl⟩⟩ := toggle_cases htoggle <;>
        exact .refl _
    · exact .refl _
  | removeProbe | record | clearProbes | intern => exact .of_eq (List.append_nil _).symm
  | read limit source => exact (Definition.wires_draftOnto b limit source hn).2

/-- The connections on a board are those that it had and those that operations have made since. -/
theorem WellFormed.perm_links_foldl_apply (h : b.WellFormed) (ops : List Operation) :
    (ops.foldl Operation.apply b).circuit.links.Perm
      (b.circuit.links ++ Operation.connected b ops) := by
  induction ops generalizing b with
  | nil => exact .of_eq (List.append_nil _).symm
  | cons op ops ih =>
    refine (ih (h.apply op)).trans ?_
    rw [Operation.connected, ← List.append_assoc]
    exact (h.perm_links_apply op).append_right _

/-- **The graph.** Whatever has been done to a board, its graph has one node for each device, in the
order in which the devices were declared, with the name and the kind as the label. Its edges are, one
after the other and in the order of the inputs, the connections: each goes from the device that
drives an input to the device with the input, and names the pins. The inputs that are driven are
those of the connections; the others, in the same order, are listed as undriven, so that every input
is accounted for once. And the connections that are there are all those that have ever been made. -/
theorem topology_ofOperations (passLimit : Nat) (ops : List Operation) (names : NameTable) :
    let c := (ofOperations passLimit ops).circuit
    let g := c.topology names
    let made := Operation.connected (.empty passLimit) ops
    (g.nodes.length = c.devices.length ∧ ∀ i d, c.devices[i]? = some d →
      (Operation.declared (.empty passLimit) ops)[i]? = some d.id ∧ c.position d.id = i ∧
        g.nodes[i]? = some (names.displayName d.id ++ " (" ++ d.kind.keyword ++ ")")) ∧
    List.Forall₂ c.Shows c.links g.edges ∧
    (c.inputPins.Nodup ∧
      ∀ d ∈ c.devices, ∀ pin, (d.id, pin) ∈ c.inputPins ↔ (d.input? pin).isSome) ∧
    c.links.map Link.input = c.inputPins.filter (fun input => (c.driver? input).isSome) ∧
    c.undriven = c.inputPins.filter (fun input => (c.driver? input).isNone) ∧
    c.links.Perm made ∧ g.edges.length = made.length ∧
    g.edges.length + c.undriven.length = c.inputPins.length := by
  intro c g made
  have hb : (ofOperations passLimit ops).WellFormed :=
    (wellFormed_empty passLimit).foldl_apply ops
  have hc : c.WellFormed := hb.circuit
  have hids : c.ids = Operation.declared (.empty passLimit) ops := ids_foldl_apply _ ops
  have hedges : List.Forall₂ c.Shows c.links g.edges := hc.forall₂_edges names
  have hmade : c.links.Perm made := (wellFormed_empty passLimit).perm_links_foldl_apply ops
  refine ⟨⟨by simp [g, Circuit.topology], fun i d hd => ⟨?_, ?_, ?_⟩⟩, hedges,
    ⟨Circuit.nodup_inputPins hc.nodup, fun d hd pin => ?_⟩,
    Circuit.map_input_links hc.nodup, Circuit.undriven_eq_filter hc.nodup, hmade,
    hedges.length_eq.symm.trans hmade.length_eq, ?_⟩
  · rw [← hids, Circuit.ids, List.getElem?_map, hd]
    rfl
  · exact Circuit.position_of_getElem? hc.nodup hd
  · simp only [g, Circuit.topology, List.getElem?_map, hd]
    rfl
  · exact Circuit.mem_inputPins_iff hc.nodup hd
  · rw [← hedges.length_eq]
    exact Circuit.length_links_add hc.nodup

end Board

end Breadboard
