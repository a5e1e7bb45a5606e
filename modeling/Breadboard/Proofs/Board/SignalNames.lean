import Breadboard.Proofs.Board.Operations
import Breadboard.Proofs.Names
import Mathlib.Data.List.TakeDrop
import Mathlib.Data.List.TakeWhile

/-!
# Signal names

Printing the name of an output and reading it back. What stands before the first dot of a signal
name is the name of a device, so reading undoes printing as long as the names of devices have no
dots. Printing undoes reading on every board.

* `signalName_of_terminal?`, `Named.terminal?_signalName`: the two directions.
* `perm_signalNames`, `Named.nodup_signalNames`: the names of probed and of other outputs are those
  of all outputs, and no two of them are the same.
* `Named.toggle_signalName`, `toggle_of_notMem`: a signal is toggled at its own output, and a text
  that is no signal name is refused.
-/
namespace Breadboard

/-! ## Cutting and joining -/

namespace Text

variable {separator : Char} {text before after : String}

theorem cutAt?_of_notMem (h : separator ∉ text.toList) : cutAt? separator text = none := by
  have hdrop : text.toList.dropWhile (· != separator) = [] := by
    refine List.dropWhile_eq_nil_iff.2 fun c hc => ?_
    simpa using fun he : c = separator => h (he ▸ hc)
  simp [cutAt?, List.span_eq_takeWhile_dropWhile, hdrop]

/-- What is joined by a separator is cut there, as long as there is none before it. -/
theorem cutAt?_join (h : separator ∉ before.toList) :
    cutAt? separator (before ++ String.singleton separator ++ after) = some (before, after) := by
  have hbefore : ∀ c ∈ before.toList, (c != separator) = true := fun c hc => by
    simpa using fun he : c = separator => h (he ▸ hc)
  simp [cutAt?, List.span_eq_takeWhile_dropWhile, List.takeWhile_append_of_pos hbefore,
    List.dropWhile_append_of_pos hbefore]

theorem eq_of_cutAt? (h : cutAt? separator text = some (before, after)) :
    text = before ++ String.singleton separator ++ after := by
  have htext := List.takeWhile_append_dropWhile (p := (· != separator)) (l := text.toList)
  have hhead := List.head?_dropWhile_not (· != separator) text.toList
  rw [cutAt?, List.span_eq_takeWhile_dropWhile] at h
  cases hdrop : text.toList.dropWhile (· != separator) with
  | nil =>
    rw [hdrop] at h
    cases h
  | cons c cs =>
    rw [hdrop] at h htext hhead
    obtain rfl : c = separator := by simpa using hhead
    cases h
    rw [← String.toList_inj]
    simp [htext]

end Text

theorem OutputPin.ofName?_of_name? {pin : OutputPin} {word : String} (h : pin.name? = some word) :
    OutputPin.ofName? word = some pin := by
  cases pin with
  | out => cases h
  | q | qbar =>
    cases h
    rfl

theorem NameTable.displayName_of_query? {names : NameTable} {name : String} {id : NameId}
    (h : names.query? name = some id) : names.displayName id = name := by
  rw [displayName, getElem?_of_query? h, Option.getD_some]

namespace Board

variable {b : Board} {t : Terminal} {name : String}

/-- Every device of the board has a name in the table, and there is no dot in it. -/
def Named (b : Board) : Prop :=
  ∀ id ∈ b.circuit.ids, ∃ name, b.names.query? name = some id ∧ '.' ∉ name.toList

theorem Named.of_names_eq {b' : Board} (h : b.Named) (hnames : b'.names = b.names)
    (hids : b'.circuit.ids = b.circuit.ids) : b'.Named := by
  unfold Named
  rwa [hnames, hids]

/-! ## Printing and reading -/

/-- A signal name that is read and printed again is the same. -/
theorem signalName_of_terminal? (h : b.terminal? name = some t) : b.signalName t = name := by
  unfold terminal? at h
  split at h
  · rename_i device word hcut
    obtain ⟨pin, hpin, h⟩ := Option.bind_eq_some_iff.1 h
    obtain ⟨id, hid, rfl⟩ := Option.map_eq_some_iff.1 h
    simp only [signalName, OutputPin.name?_of_ofName? hpin, NameTable.displayName_of_query? hid]
    exact (Text.eq_of_cutAt? hcut).symm
  · obtain ⟨id, hid, rfl⟩ := Option.map_eq_some_iff.1 h
    exact NameTable.displayName_of_query? hid

theorem Named.terminal?_signalName (h : b.Named) (ht : t.device ∈ b.circuit.ids) :
    b.terminal? (b.signalName t) = some t := by
  obtain ⟨id, pin⟩ := t
  obtain ⟨device, hid, hdot⟩ := h id ht
  cases hpin : pin.name? with
  | none =>
    obtain rfl : pin = .out := by
      cases pin with
      | out => rfl
      | q | qbar => cases hpin
    have hname : b.signalName ⟨id, .out⟩ = device := NameTable.displayName_of_query? hid
    rw [hname, terminal?, Text.cutAt?_of_notMem hdot]
    simp only [hid, Option.map_some]
  | some word =>
    have hname : b.signalName ⟨id, pin⟩ = device ++ String.singleton '.' ++ word := by
      simp only [signalName, hpin, NameTable.displayName_of_query? hid]
      rfl
    rw [hname, terminal?, Text.cutAt?_join hdot]
    simp only [OutputPin.ofName?_of_name? hpin, hid, Option.bind_some, Option.map_some]

theorem device_mem_ids_of_mem_terminals (h : t ∈ b.circuit.terminals) :
    t.device ∈ b.circuit.ids := by
  obtain ⟨d, hd, ht⟩ := List.mem_flatMap.1 h
  obtain ⟨pin, -, rfl⟩ := List.mem_map.1 ht
  exact List.mem_map_of_mem hd

theorem Named.nodup_signalNames (h : b.Named) (hn : b.circuit.ids.Nodup) :
    (b.circuit.terminals.map b.signalName).Nodup := by
  refine (Circuit.nodup_terminals hn).map_on fun t ht t' ht' he => ?_
  have hread := h.terminal?_signalName (device_mem_ids_of_mem_terminals ht)
  rw [he, h.terminal?_signalName (device_mem_ids_of_mem_terminals ht')] at hread
  exact (Option.some.inj hread).symm

/-! ## The two lists -/

theorem perm_signalNames (b : Board) :
    (b.monitored ++ b.unmonitored).Perm (b.circuit.terminals.map b.signalName) := by
  rw [monitored, unmonitored, ← List.map_append]
  exact (List.filter_append_perm b.probes.contains b.circuit.terminals).map _

theorem monitored_sublist (b : Board) :
    b.monitored.Sublist (b.circuit.terminals.map b.signalName) :=
  List.filter_sublist.map _

theorem unmonitored_sublist (b : Board) :
    b.unmonitored.Sublist (b.circuit.terminals.map b.signalName) :=
  List.filter_sublist.map _

/-! ## What names address -/

theorem Named.trace?_signalName (h : b.Named) (ht : t ∈ b.circuit.terminals) :
    b.trace? (b.signalName t) = b.probes.trace? t := by
  rw [trace?, h.terminal?_signalName (device_mem_ids_of_mem_terminals ht), Option.bind_some]

/-- A signal is toggled at its own output: the probe there is taken off, or one is put on that
starts with blanks. -/
theorem Named.toggle_signalName (h : b.Named) (hn : b.circuit.ids.Nodup)
    (ht : t ∈ b.circuit.terminals) (blanks : Nat) :
    ∃ probes, b.toggle (b.signalName t) blanks = .ok (!b.probes.contains t, { b with probes }) ∧
      ∀ other, probes.trace? other =
        if other = t then
          if b.probes.contains t then none else some (Array.replicate blanks .blank)
        else b.probes.trace? other := by
  have hout : b.circuit.hasTerminal t = true := (Circuit.mem_terminals_iff hn).1 ht
  have hread := h.terminal?_signalName (device_mem_ids_of_mem_terminals ht)
  cases hprobe : b.probes.contains t with
  | true =>
    refine ⟨_, toggle_of_probed hread hout hprobe blanks, fun other => ?_⟩
    simp [Probes.trace?_remove]
  | false =>
    have hadd : b.probes.add b.circuit t blanks = .ok _ :=
      Probes.add_eq_ok_iff.2 ⟨hout, hprobe, rfl⟩
    refine ⟨_, toggle_of_unprobed hread hout hprobe blanks, fun other => ?_⟩
    simp [Probes.trace?_add hadd]

/-- A text that is no signal name stands for no output of a device. -/
theorem hasTerminal_of_notMem (hn : b.circuit.ids.Nodup)
    (hname : name ∉ b.circuit.terminals.map b.signalName) (h : b.terminal? name = some t) :
    b.circuit.hasTerminal t = false := by
  rw [Bool.eq_false_iff]
  intro hout
  refine hname (List.mem_map.2 ⟨t, (Circuit.mem_terminals_iff hn).2 hout, ?_⟩)
  exact signalName_of_terminal? h

theorem toggle_of_notMem (hn : b.circuit.ids.Nodup)
    (hname : name ∉ b.circuit.terminals.map b.signalName) (blanks : Nat) :
    b.toggle name blanks = .error (.unknownSignal name) :=
  toggle_of_unknown (fun _ => hasTerminal_of_notMem hn hname) blanks

theorem trace?_of_notMem (hb : b.WellFormed)
    (hname : name ∉ b.circuit.terminals.map b.signalName) : b.trace? name = none := by
  unfold trace?
  cases hread : b.terminal? name with
  | none => rfl
  | some t =>
    have hnone := hasTerminal_of_notMem hb.circuit.nodup hname hread
    cases htrace : b.probes.trace? t with
    | none => exact htrace
    | some samples =>
      have hout := hb.probes.outputs _ (hb.probes.trace?_eq_some_iff.1 htrace)
      rw [hnone] at hout
      cases hout

end Board

end Breadboard
