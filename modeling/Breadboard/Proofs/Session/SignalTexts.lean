import Breadboard.Proofs.Session.SignalNames

/-!
# Signal names as texts

Which characters there are in the names of signals. The name of a device is a word of its
definition, so it is made of letters and digits, and a dot stands only before the name of a pin.

* `Board.Worded.of_mem_signalName`: each character is a letter, a digit or a dot.
* `Session.worded_afterAll`: this holds in every session on a definition, whatever is done in it.
-/
namespace Breadboard

namespace Board

variable {b : Board} {t : Terminal} {c : Char}

/-- Every device of the board has a name in the table that is made of letters and digits. -/
def Worded (b : Board) : Prop :=
  ∀ id ∈ b.circuit.ids, ∃ name, b.names.query? name = some id ∧ name.toList ≠ [] ∧
    ∀ c ∈ name.toList, Text.isAlphanumeric c = true

namespace Worded

theorem of_names_eq {b' : Board} (h : b.Worded) (hnames : b'.names = b.names)
    (hids : b'.circuit.ids = b.circuit.ids) : b'.Worded := by
  unfold Worded
  rwa [hnames, hids]

theorem named (h : b.Worded) : b.Named := by
  intro id hid
  obtain ⟨name, hquery, -, hword⟩ := h id hid
  refine ⟨name, hquery, fun hdot => ?_⟩
  have halphanumeric := hword '.' hdot
  rw [Definition.isAlphanumeric_dot] at halphanumeric
  cases halphanumeric

/-- A signal name is a word, and behind it there may be a dot and the name of a pin. -/
theorem exists_signalName_eq (h : b.Worded) (ht : t.device ∈ b.circuit.ids) :
    ∃ word, word ≠ [] ∧ (∀ c ∈ word, Text.isAlphanumeric c = true) ∧
      ∃ pin ∈ ["", ".Q", ".QBAR"], (b.signalName t).toList = word ++ pin.toList := by
  obtain ⟨name, hquery, hne, hword⟩ := h _ ht
  have hname : b.names.displayName t.device = name := NameTable.displayName_of_query? hquery
  refine ⟨name.toList, hne, hword, ?_⟩
  have hpin (word : String) : s!"{name}.{word}" = name ++ ("." ++ word) := String.append_assoc
  rcases hp : t.pin with _ | _ | _ <;>
    simp only [signalName, hp, OutputPin.name?, hname, hpin, String.toList_append]
  · exact ⟨"", by simp, by simp⟩
  · exact ⟨".Q", by simp, rfl⟩
  · exact ⟨".QBAR", by simp, rfl⟩

theorem signalName_ne_nil (h : b.Worded) (ht : t.device ∈ b.circuit.ids) :
    (b.signalName t).toList ≠ [] := by
  obtain ⟨word, hne, -, pin, -, hname⟩ := h.exists_signalName_eq ht
  rw [hname]
  exact List.append_ne_nil_of_left_ne_nil hne _

theorem of_mem_signalName (h : b.Worded) (ht : t.device ∈ b.circuit.ids)
    (hc : c ∈ (b.signalName t).toList) : Text.isAlphanumeric c = true ∨ c = '.' := by
  obtain ⟨word, -, hword, pin, hpin, hname⟩ := h.exists_signalName_eq ht
  have hpins : ∀ pin ∈ ["", ".Q", ".QBAR"],
      pin.toList.all (fun c => Text.isAlphanumeric c || c == '.') = true := by
    decide +kernel
  rw [hname, List.mem_append] at hc
  rcases hc with hc | hc
  · exact .inl (hword c hc)
  · simpa using List.all_eq_true.1 (hpins pin hpin) c hc

theorem notMem_signalName (h : b.Worded) (ht : t.device ∈ b.circuit.ids)
    (hc : Text.isAlphanumeric c = false) (hdot : c ≠ '.') : c ∉ (b.signalName t).toList := by
  intro hmem
  rcases h.of_mem_signalName ht hmem with hword | rfl
  · rw [hc] at hword
    cases hword
  · exact hdot rfl

end Worded

end Board

namespace Definition.SyntaxTree

theorem worded_board {t : SyntaxTree} {source : String} {limit : Nat} (h : t.Derives source)
    (ht : t.WellFormed limit) (passLimit : Nat) : (t.board passLimit).Worded := by
  intro id hid
  rw [board, Layout.ids_circuit] at hid
  obtain ⟨p, hp, rfl⟩ := List.mem_map.1 hid
  obtain ⟨after, ⟨c, rest, hword, -⟩, hall, -⟩ := exists_fits_of_mem_names h (ht.mem_names hp)
  exact ⟨p.name, query?_of_mem_parts ht hp, by simp [hword], hall⟩

end Definition.SyntaxTree

namespace Session

variable {limits : Limits} {source : String} {s₀ : Session}

/-- In a session on a definition, the devices have words for names. -/
theorem worded_afterAll (hload : (load limits source).2 = .ok s₀) (steps : List Step) :
    (s₀.afterAll steps).board.Worded := by
  obtain ⟨t, ht, hwf, rfl⟩ := exists_tree_of_load hload
  have hleads := leads_afterAll { board := t.board limits.passes } steps
  exact (Definition.SyntaxTree.worded_board ht hwf limits.passes).of_names_eq hleads.names_eq
    hleads.ids_eq

end Session

end Breadboard
