import Breadboard.Proofs.Definition.Scanning
import Breadboard.Proofs.Definition.Sections

/-!
# Acceptance

Which texts are accepted as definitions, and what becomes of them.

* `readOnto_accepted_iff_board_eq`: on an empty board, a text is accepted exactly if it is a
  well-formed definition, and the board is then the one that it describes.
-/
namespace Breadboard.Definition

variable {source : String} {t : SyntaxTree}

theorem names_scan (h : t.Derives source) :
    (scan .empty source.toList).names = t.names := by
  have hnames := names_tokensFrom .empty false (placed {} (lexemes source.toList))
  rw [SyntaxTree.names, ← h.symbols]
  exact hnames

/-- **Definitions.** Read onto an empty board, a text is accepted exactly if it is a well-formed
definition, and it becomes the board which that definition describes. -/
theorem readOnto_accepted_iff_board_eq (limit passLimit : Nat) (source : String) :
    ((readOnto (.empty passLimit) limit source).accepted = true ∧
        (readOnto (.empty passLimit) limit source).diagnostics = [] ↔
      ∃ t : SyntaxTree, t.Derives source ∧ t.WellFormed limit) ∧
    ∀ t : SyntaxTree, t.Derives source → t.WellFormed limit →
      (readOnto (.empty passLimit) limit source).board = t.board passLimit := by
  let scanned := scan .empty source.toList
  let d := readFile limit scanned.tokens scanned.finish (Layout.draft {} scanned.names passLimit)
  have hnumbered : ∀ t ∈ scanned.tokens, t.Numbered scanned.names :=
    numbered_of_mem_tokensFrom .empty false (placed {} (lexemes source.toList))
  have hread (t : SyntaxTree) (h : t.Derives source) (ht : t.WellFormed limit) :
      d = t.layout.draft scanned.names passLimit :=
    readFile_complete passLimit rfl hnumbered ht (spelled_tokens_iff.2 h.symbols)
  have hdiagnostics : (readOnto (.empty passLimit) limit source).diagnostics = [] ↔
      scanned.strays = [] ∧ d.issues = [] := by
    show (scanned.issues ++ d.issues).map _ = [] ↔ _
    rw [List.map_eq_nil_iff, List.append_eq_nil_iff, Scan.issues, List.map_eq_nil_iff]
  have haccepted : (readOnto (.empty passLimit) limit source).accepted = true ↔
      (readOnto (.empty passLimit) limit source).diagnostics = [] := List.isEmpty_iff
  rw [haccepted, and_self, hdiagnostics]
  refine ⟨⟨fun ⟨hstrays, hissues⟩ => ?_, fun ⟨t, h, ht⟩ => ?_⟩, fun t h ht => ?_⟩
  · obtain ⟨t, ht, hspelled⟩ := readFile_sound rfl hnumbered hissues
    exact ⟨t, ⟨hstrays, spelled_tokens_iff.1 hspelled⟩, ht⟩
  · exact ⟨h.strays, by rw [hread t h ht]; rfl⟩
  · show Board.mk scanned.names d.circuit d.probes = t.board passLimit
    rw [hread t h ht, show scanned.names = t.names from names_scan h]
    rfl

/-- A gate that is high while its switch is off, and rings while it is on. -/
def ringText : String := "[devices] A = SWITCH(1); G = NAND(2);\n[conns] G = A, G;\n[monit] G;"

def ring : SyntaxTree where
  devices := [⟨["A"], .switch, some "1", by decide⟩, ⟨["G"], .gate .nand, some "2", by decide⟩]
  connections := [⟨⟨"G", none⟩, [⟨"A", none⟩, ⟨"G", none⟩], by decide⟩]
  monitors := [⟨[⟨"G", none⟩], by decide⟩]

theorem ring_parts : ring.layout.parts =
    [⟨"A", .switch true⟩, ⟨"G", .gate { kind := .nand, inputs := [none, none] }⟩] := rfl

theorem ring_wellFormed : ring.WellFormed 2 where
  lines_le s := by cases s <;> decide
  suits := by
    simp only [ring, List.forall_mem_cons]
    refine ⟨⟨?_, _, rfl⟩, ⟨?_, _, rfl⟩, by simp⟩
    all_goals
      rintro _ ⟨⟩
      decide
  nodup_names := by decide
  fits := by
    rw [ring_parts]
    simp only [ring, List.forall_mem_cons]
    refine ⟨⟨_, List.mem_cons_of_mem _ List.mem_cons_self, rfl, .gate 1, ?_⟩, by simp⟩
    exact ⟨Or.inr ⟨rfl, rfl⟩, by decide, by decide⟩
  sources := by
    rw [ring_parts]
    simp [ring, Signal.IsOutput, Logic.outputPins, OutputPin.name?]
  nodup_places := by decide
  signals := by
    rw [ring_parts]
    simp [ring, Signal.IsOutput, Logic.outputPins, OutputPin.name?]
  nodup_signals := by decide

theorem ring_accepted :
    ring.Derives ringText ∧ ring.WellFormed 2 ∧
      (readOnto (.empty 20) 2 ringText).accepted = true ∧
      (readOnto (.empty 20) 2 ringText).board = ring.board 20 := by
  have hderives : ring.Derives ringText := ⟨by decide +kernel, by decide +kernel⟩
  obtain ⟨haccepted, hboard⟩ := readOnto_accepted_iff_board_eq 2 20 ringText
  refine ⟨hderives, ring_wellFormed, ?_, hboard ring hderives ring_wellFormed⟩
  exact (haccepted.2 ⟨ring, hderives, ring_wellFormed⟩).1

end Breadboard.Definition
