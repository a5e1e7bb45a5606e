import Breadboard.Proofs.Circuit.Pins

/-!
# Connections and edges

The connections of a circuit, in the order of the inputs that they drive, and what the operations on
circuits make of them: a device that is added comes without any, connecting adds one, and nothing
else changes them. The graph of a circuit has an edge for each connection.

* `map_input_links`, `undriven_eq_filter`: the inputs fall into those that are driven, one by each
  connection, and those that are listed as undriven.
* `links_addDevice`, `perm_links_connect`, `links_of_bare_eq`: the operations.
* `WellFormed.forall₂_edges`: the edges, one after the other, are the connections.
-/
namespace Breadboard

/-! ## Parts -/

namespace Logic

def driver? (l : Logic) (pin : InputPin) : Option Terminal := (l.input? pin).getD none

/-- The inputs of a part that are driven, in order, each with its driver. -/
def driven (l : Logic) : List (InputPin × Terminal) :=
  l.inputs.filterMap fun (pin, driver) => driver.map fun t => (pin, t)

theorem map_fst_driven (l : Logic) :
    l.driven.map (·.1) = l.inputPins.filter fun pin => (l.driver? pin).isSome := by
  rw [driven, inputs_eq_map, List.filterMap_map]
  induction l.inputPins with
  | nil => rfl
  | cons pin pins ih => cases h : (l.input? pin).getD none <;> simp_all [driver?]

theorem map_fst_undriven (l : Logic) :
    (l.inputs.filter (·.2.isNone)).map (·.1) =
      l.inputPins.filter fun pin => (l.driver? pin).isNone := by
  rw [inputs_eq_map, List.filter_map, List.map_map]
  exact List.map_id _

theorem PowerOn.driven_eq_nil {l : Logic} (h : l.PowerOn) : l.driven = [] := by
  rw [driven, List.filterMap_eq_nil_iff]
  rintro ⟨pin, driver⟩ hin
  rw [h.inputs_open hin]
  rfl

@[simp]
theorem driven_bare (l : Logic) : l.bare.driven = l.driven := by rw [driven, inputs_bare, driven]

/-- A driver that is put in place at an open input is one more. -/
theorem perm_driven_drive {l : Logic} {pin : InputPin} (h : l.input? pin = some none)
    (source : Terminal) : (l.drive pin source).driven.Perm ((pin, source) :: l.driven) := by
  obtain ⟨before, behind, hinputs⟩ := List.append_of_mem (mem_inputs_iff.2 h)
  have hnodup := l.nodup_inputPins
  rw [← map_fst_inputs, hinputs, List.map_append, List.map_cons] at hnodup
  have hother := (List.nodup_middle.1 hnodup).notMem
  rw [List.mem_append, not_or] at hother
  have hkeep : ∀ part : List (InputPin × Option Terminal), pin ∉ part.map (·.1) →
      part.map (fun x => (x.1, if x.1 = pin then some source else x.2)) = part := by
    intro part hpart
    conv_rhs => rw [← List.map_id part]
    refine List.map_congr_left fun x hx => ?_
    rw [if_neg fun he : x.1 = pin => hpart (he ▸ List.mem_map_of_mem hx)]
    rfl
  have hdrive : (l.drive pin source).inputs = before ++ (pin, some source) :: behind := by
    rw [inputs_drive, hinputs, List.map_append, List.map_cons]
    exact congrArg₂ _ (hkeep before hother.1)
      (congrArg₂ _ (congrArg _ (if_pos rfl)) (hkeep behind hother.2))
  simp only [driven, hdrive, hinputs, List.filterMap_append, List.filterMap_cons, Option.map_some,
    Option.map_none]
  exact List.perm_middle

end Logic

/-! ## Connections -/

/-- A connection: an output that drives an input. -/
structure Link where
  source : Terminal
  target : NameId
  pin : InputPin
  deriving DecidableEq, Repr

def Link.input (l : Link) : NameId × InputPin := (l.target, l.pin)

namespace Circuit

variable {c c' : Circuit}

/-- The connections of a circuit, in the order of the devices and of their inputs. -/
def links (c : Circuit) : List Link :=
  c.devices.flatMap fun d => d.logic.driven.map fun (pin, t) => ⟨t, d.id, pin⟩

def inputPins (c : Circuit) : List (NameId × InputPin) :=
  c.devices.flatMap fun d => d.logic.inputPins.map fun pin => (d.id, pin)

def driver? (c : Circuit) (input : NameId × InputPin) : Option Terminal :=
  (c.find? input.1).bind (·.logic.driver? input.2)

theorem nodup_inputPins (hn : c.ids.Nodup) : c.inputPins.Nodup := by
  refine List.nodup_flatMap.2 ⟨fun d _ => ?_, ?_⟩
  · exact d.logic.nodup_inputPins.map fun pin pin' h => congrArg Prod.snd h
  · rw [ids, List.Nodup, List.pairwise_map] at hn
    refine hn.imp fun {d d'} hne t ht ht' => hne ?_
    obtain ⟨pin, -, rfl⟩ := List.mem_map.1 ht
    obtain ⟨pin', -, h⟩ := List.mem_map.1 ht'
    exact (congrArg Prod.fst h).symm

theorem mem_inputPins_iff (hn : c.ids.Nodup) {d : Device} (hd : d ∈ c.devices) {pin : InputPin} :
    (d.id, pin) ∈ c.inputPins ↔ (d.input? pin).isSome := by
  rw [Device.input?, Logic.isSome_input?_iff, inputPins, List.mem_flatMap]
  constructor
  · rintro ⟨e, he, hin⟩
    obtain ⟨pin', hpin, h⟩ := List.mem_map.1 hin
    obtain rfl : e = d := List.inj_on_of_nodup_map hn he hd (congrArg Prod.fst h)
    obtain rfl : pin' = pin := congrArg Prod.snd h
    exact hpin
  · intro hpin
    exact ⟨d, hd, List.mem_map_of_mem hpin⟩

/-- Choosing among the inputs by their drivers is choosing so at each device. -/
theorem filter_inputPins (hn : c.ids.Nodup) (p : Option Terminal → Bool) :
    c.inputPins.filter (fun input => p (c.driver? input)) =
      c.devices.flatMap fun d =>
        (d.logic.inputPins.filter fun pin => p (d.logic.driver? pin)).map fun pin =>
          (d.id, pin) := by
  rw [inputPins, List.filter_flatMap]
  refine List.flatMap_congr fun d hd => ?_
  have hfind := (find?_eq_some_iff hn).2 ⟨hd, rfl⟩
  rw [List.filter_map]
  refine congrArg _ (List.filter_congr fun pin _ => ?_)
  simp [driver?, hfind]

/-- The inputs that are driven are those of the connections. -/
theorem map_input_links (hn : c.ids.Nodup) :
    c.links.map Link.input = c.inputPins.filter fun input => (c.driver? input).isSome := by
  rw [filter_inputPins hn Option.isSome, links, List.map_flatMap]
  refine List.flatMap_congr fun d _ => ?_
  rw [← Logic.map_fst_driven, List.map_map, List.map_map]
  rfl

theorem undriven_eq_filter (hn : c.ids.Nodup) :
    c.undriven = c.inputPins.filter fun input => (c.driver? input).isNone := by
  rw [filter_inputPins hn Option.isNone, undriven]
  refine List.flatMap_congr fun d _ => ?_
  rw [← Logic.map_fst_undriven, List.map_map]
  rfl

/-- Every input is driven or undriven. -/
theorem length_links_add (hn : c.ids.Nodup) :
    c.links.length + c.undriven.length = c.inputPins.length := by
  have hsplit := List.length_eq_length_filter_add (l := c.inputPins)
    fun input => (c.driver? input).isSome
  simp only [Option.not_isSome] at hsplit
  rw [hsplit, ← map_input_links hn, ← undriven_eq_filter hn, List.length_map]

/-! ## What operations make of connections -/

theorem links_of_bare_eq (h : c'.bare = c.bare) : c'.links = c.links := by
  have hbare (c : Circuit) : c.bare.links = c.links := by
    simp only [links, bare, mapLogic, List.flatMap_map, Device.mapLogic, Logic.driven_bare]
  rw [← hbare, h, hbare]

theorem links_addDevice {id : NameId} {kind : DeviceKind} {parameter : Option UInt32}
    (hadd : c.addDevice id kind parameter = .ok c') : c'.links = c.links := by
  obtain ⟨-, l, hl, rfl⟩ := addDevice_eq_ok_iff.1 hadd
  simp [links, (Logic.powerOn_of_ofKind hl).driven_eq_nil]

theorem perm_links_connect {source : Terminal} {target : NameId} {pin : InputPin}
    (hn : c.ids.Nodup) (hconnect : c.connect source target pin = .ok c') :
    c'.links.Perm (c.links ++ [⟨source, target, pin⟩]) := by
  obtain ⟨-, ⟨d, hd, hopen⟩, rfl⟩ := connect_eq_ok_iff.1 hconnect
  obtain ⟨before, l, l', behind, hdevices, heq, hl⟩ := differsAt_modify hn hd
    (f := (·.drive pin source)) (R := fun l l' => l'.driven.Perm ((pin, source) :: l.driven))
    (Logic.perm_driven_drive hopen source)
  rw [heq, links, links, hdevices]
  simp only [List.flatMap_append, List.flatMap_cons]
  -- The new connection goes from its place among those of the device to the end.
  refine .trans ((((hl.map _).append_right _).append_left _).trans ?_)
    (List.perm_append_singleton _ _).symm
  exact List.perm_middle

/-- The connection that is made when an input is connected, if it is made. -/
def linked (c : Circuit) (source : Terminal) (target : NameId) (pin : InputPin) : List Link :=
  match c.connect source target pin with
  | .ok _ => [⟨source, target, pin⟩]
  | .error _ => []

/-! ## Edges -/

theorem find?_eq_getElem?_position (c : Circuit) (id : NameId) :
    c.find? id = c.devices[c.position id]? :=
  List.find?_eq_getElem?_findIdx

theorem position_of_getElem? (hn : c.ids.Nodup) {i : Nat} {d : Device}
    (h : c.devices[i]? = some d) : c.position d.id = i := by
  have hfind := (find?_eq_some_iff hn).2 ⟨List.mem_of_getElem? h, rfl⟩
  rw [find?_eq_getElem?_position] at hfind
  have hlt : c.position d.id < c.devices.length := (List.getElem?_eq_some_iff.1 hfind).1
  have hsame : c.ids[c.position d.id]? = c.ids[i]? := by
    simp only [ids, List.getElem?_map, hfind, h]
  exact (List.getElem?_inj (by simpa [ids] using hlt) hn).1 hsame

/-- An edge shows a connection: it goes from the position of the device with the output to that of
the device with the input, and names the two pins as far as they have names. -/
structure Shows (c : Circuit) (link : Link) (e : Topology.Edge) : Prop where
  source : ∃ d, c.devices[e.source]? = some d ∧ d.id = link.source.device ∧
    link.source.pin ∈ d.logic.outputPins
  target : ∃ d, c.devices[e.target]? = some d ∧ d.id = link.target ∧
    d.input? link.pin = some (some link.source)
  label : e.label = match link.source.pin.name? with
    | some output => output ++ " -> " ++ link.pin.name
    | none => link.pin.name

/-- The edges, one after the other, are the connections. -/
theorem WellFormed.forall₂_edges (h : c.WellFormed) (names : NameTable) :
    List.Forall₂ c.Shows c.links (c.topology names).edges := by
  have hedges : (c.topology names).edges = c.links.map fun link =>
      { source := c.position link.source.device, target := c.position link.target,
        label := wireLabel link.source.pin link.pin } := by
    simp only [topology, links, List.map_flatMap, Logic.driven, List.map_filterMap, Device.inputs,
      Option.map_map]
    rfl
  rw [hedges, List.forall₂_map_right_iff, List.forall₂_same]
  intro link hlink
  obtain ⟨d, hd, hin⟩ := List.mem_flatMap.1 hlink
  simp only [Logic.driven, List.map_filterMap, List.mem_filterMap, Option.map_map,
    Option.map_eq_some_iff] at hin
  obtain ⟨⟨pin, driver⟩, hin, t, rfl, rfl⟩ := hin
  obtain ⟨s, hs, hout⟩ := hasTerminal_iff.1 (h.drivers d hd pin t hin)
  have hfind := (find?_eq_some_iff h.nodup).2 ⟨hd, rfl⟩
  exact ⟨⟨s, (find?_eq_getElem?_position c _).symm.trans hs, id_of_find? hs, hout⟩,
    ⟨d, (find?_eq_getElem?_position c _).symm.trans hfind, rfl, Logic.mem_inputs_iff.1 hin⟩, rfl⟩

end Circuit

end Breadboard
