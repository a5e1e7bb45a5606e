import Breadboard.Proofs.Probe.Waveform
import Breadboard.Proofs.Session.SignalTexts

/-!
# Wires under the names of signals

A wire has an underscore for each character of its signal that is no letter or digit of ASCII. Two
signals may so get wires of one name, but only if their names are of one length and differ where
neither has an ASCII letter or digit.

* `wireName_eq_iff`: which names are written alike.
* `eq_of_blurred`: ASCII names of signals are not.
* `wireNames_eq_iff`: the main result, for the file of every session.
* `accents_share_wireName`: two switches that are written alike.
-/
namespace Breadboard

namespace Waveform

open Breadboard.Text

/-- Where the two texts differ, neither has a letter or digit of ASCII. -/
def Blurred (signal signal' : String) : Prop :=
  List.Forall₂ (fun c c' => c = c' ∨ c.isAlphanum = false ∧ c'.isAlphanum = false)
    signal.toList signal'.toList

def IsAscii (text : String) : Prop := ∀ c ∈ text.toList, c.toNat < 0x80

/-! ## Characters -/

variable {c c' : Char}

theorem isAlphanumeric_underscore : isAlphanumeric '_' = false := by
  decide +kernel

/-- The letters and digits of ASCII are those that are letters or digits at all. -/
theorem isAlphanumeric_of_ascii (h : c.toNat < 0x80) : isAlphanumeric c = c.isAlphanum := by
  have hall : ∀ n : Fin 0x80, isAlphanumeric (Char.ofNat n) = (Char.ofNat n).isAlphanum := by
    decide +kernel
  have hc := hall ⟨c.toNat, h⟩
  rwa [Char.ofNat_toNat] at hc

/-- Two characters other than the underscore are written alike if they are the same or neither may
stand in the name of a wire. -/
theorem wireChar_eq_iff (h : c ≠ '_') (h' : c' ≠ '_') :
    (if isWireChar c then c else '_') = (if isWireChar c' then c' else '_') ↔
      c = c' ∨ c.isAlphanum = false ∧ c'.isAlphanum = false := by
  have hkept : isWireChar c = c.isAlphanum := by simp [isWireChar, h]
  have hkept' : isWireChar c' = c'.isAlphanum := by simp [isWireChar, h']
  rw [hkept, hkept']
  by_cases hsame : c = c'
  · simp [hsame]
  · cases c.isAlphanum <;> cases c'.isAlphanum <;> simp [hsame, h, h'.symm]

/-! ## Names -/

variable {signal signal' : String}

/-- Names without underscores are written alike if where they differ, neither has a letter or digit
of ASCII. -/
theorem wireName_eq_iff (h : '_' ∉ signal.toList) (h' : '_' ∉ signal'.toList) :
    wireName signal = wireName signal' ↔ Blurred signal signal' := by
  rw [wireName, wireName, String.ofList_inj, ← List.forall₂_eq_eq_eq, List.forall₂_map_left_iff,
    List.forall₂_map_right_iff, Blurred, List.forall₂_iff_zip, List.forall₂_iff_zip]
  refine and_congr_right fun _ => forall_congr' fun c => forall_congr' fun c' =>
    imp_congr_right fun hmem => wireChar_eq_iff ?_ ?_
  · exact fun hc => h (hc ▸ (List.of_mem_zip hmem).1)
  · exact fun hc' => h' (hc' ▸ (List.of_mem_zip hmem).2)

/-- Between letters and digits of ASCII and dots, every difference shows. -/
theorem eq_of_blurred (h : ∀ c ∈ signal.toList, c.isAlphanum = true ∨ c = '.')
    (h' : ∀ c ∈ signal'.toList, c.isAlphanum = true ∨ c = '.') (hblur : Blurred signal signal') :
    signal = signal' := by
  rw [Blurred, List.forall₂_iff_zip] at hblur
  rw [← String.toList_inj, ← List.forall₂_eq_eq_eq, List.forall₂_iff_zip]
  refine ⟨hblur.1, fun {c c'} hmem => ?_⟩
  rcases hblur.2 hmem with hsame | ⟨hc, hc'⟩
  · exact hsame
  · have hdot : c = '.' := (h c (List.of_mem_zip hmem).1).resolve_left (by simp [hc])
    have hdot' : c' = '.' := (h' c' (List.of_mem_zip hmem).2).resolve_left (by simp [hc'])
    rw [hdot, hdot']

end Waveform

namespace Board

open Waveform

variable {b : Board}

/-- The names of two signals are written alike just if they are blurred, and if both are ASCII they
are not. -/
theorem Worded.wireName_eq_iff (h : b.Worded) {t t' : Terminal} (ht : t.device ∈ b.circuit.ids)
    (ht' : t'.device ∈ b.circuit.ids) :
    wireName (b.signalName t) = wireName (b.signalName t') ↔
      Blurred (b.signalName t) (b.signalName t') :=
  Waveform.wireName_eq_iff (h.notMem_signalName ht isAlphanumeric_underscore (by decide))
    (h.notMem_signalName ht' isAlphanumeric_underscore (by decide))

theorem Worded.isAlphanum_of_isAscii (h : b.Worded) {t : Terminal} (ht : t.device ∈ b.circuit.ids)
    (hascii : IsAscii (b.signalName t)) :
    ∀ c ∈ (b.signalName t).toList, c.isAlphanum = true ∨ c = '.' := by
  intro c hc
  rw [← isAlphanumeric_of_ascii (hascii c hc)]
  exact h.of_mem_signalName ht hc

end Board

namespace Session

open Waveform

/-- **Names of wires.** The file of a session on a definition declares a wire for each probe, in the
order of the circuit. Two wires have the same name just if the names of their signals are of one
length and have no letter or digit of ASCII where they differ; if these are ASCII names, the wires
have different names. -/
theorem wireNames_eq_iff {limits : Limits} {source : String} {s₀ : Session}
    (hload : (load limits source).2 = .ok s₀) (steps : List Step) :
    let b := (s₀.afterAll steps).board
    let probed := b.circuit.terminals.filter b.probes.contains
    ∃ dump, decode? b.waveform = some dump ∧ probed.Perm (b.probes.probes.map (·.terminal)) ∧
      dump.declarations.length = probed.length ∧
      (probed.zip dump.declarations).Pairwise fun (t, v) (t', v') =>
        (v.name = v'.name ↔ Blurred (b.signalName t) (b.signalName t')) ∧
          (IsAscii (b.signalName t) → IsAscii (b.signalName t') → v.name ≠ v'.name) := by
  intro b probed
  have hworded : b.Worded := worded_afterAll hload steps
  have hwf : b.WellFormed := (leads_afterAll s₀ steps).wellFormed (wellFormed_of_load hload)
  have hread : decode? b.waveform = some (dump (wires b)) :=
    decode?_lines fun w hw => writable_of_mem_wires hw
  have htells := forall₂_tells b
  have hids : ∀ t ∈ probed, t.device ∈ b.circuit.ids := fun t ht =>
    Board.device_mem_ids_of_mem_terminals (List.mem_of_mem_filter ht)
  have hdistinct : (probed.zip (dump (wires b)).declarations).Pairwise fun x y =>
      b.signalName x.1 ≠ b.signalName y.1 := by
    have hprobed : (probed.map b.signalName).Nodup :=
      (hworded.named.nodup_signalNames hwf.circuit.nodup).sublist (List.filter_sublist.map _)
    have hfst : (probed.zip (dump (wires b)).declarations).map Prod.fst = probed :=
      List.map_fst_zip htells.length_eq.le
    rw [← hfst, List.map_map] at hprobed
    exact List.pairwise_map.1 hprobed
  refine ⟨dump (wires b), hread, hwf.probes.perm_terminals hwf.circuit.nodup,
    htells.length_eq.symm, hdistinct.imp_of_mem ?_⟩
  rintro ⟨t, v⟩ ⟨t', v'⟩ hmem hmem' hne
  have ht := hids t (List.of_mem_zip hmem).1
  have ht' := hids t' (List.of_mem_zip hmem').1
  have hiff : v.name = v'.name ↔ Blurred (b.signalName t) (b.signalName t') := by
    rw [forall₂_writtenAs_iff.1 (List.forall₂_zip htells hmem).name,
      forall₂_writtenAs_iff.1 (List.forall₂_zip htells hmem').name]
    exact hworded.wireName_eq_iff ht ht'
  refine ⟨hiff, fun hascii hascii' hname => hne ?_⟩
  exact eq_of_blurred (hworded.isAlphanum_of_isAscii ht hascii)
    (hworded.isAlphanum_of_isAscii ht' hascii') (hiff.1 hname)

/-- Three switches, of which two have names that differ in an accent only, and a flip-flop. -/
def accentsText : String :=
  "[devices]\nÉ, È, E = SWITCH; F = DTYPE;\n[conns]\n[monit]\nÉ, È, E, F.Q;\n"

def accents : Session where
  board :=
    { names := ⟨["devices", "É", "È", "E", "SWITCH", "F", "DTYPE", "conns", "monit", "Q"]⟩
      circuit :=
        { devices :=
            [⟨⟨1⟩, .switch false⟩, ⟨⟨2⟩, .switch false⟩, ⟨⟨3⟩, .switch false⟩, ⟨⟨5⟩, .dtype {}⟩]
          passLimit := 20 }
      probes :=
        ⟨[⟨⟨⟨1⟩, .out⟩, #[]⟩, ⟨⟨⟨2⟩, .out⟩, #[]⟩, ⟨⟨⟨3⟩, .out⟩, #[]⟩, ⟨⟨⟨5⟩, .q⟩, #[]⟩]⟩ }

theorem load_accents : (load {} accentsText).2 = .ok accents := by
  decide +kernel

/-- With the other output of the flip-flop probed, too, every two wires have the same name just if
their signals are blurred. -/
theorem accents_wireNames :
    (load {} accentsText).2 = .ok accents ∧
      ∃ dump, decode? (accents.afterAll [.run 1, .toggle "F.QBAR"]).board.waveform = some dump ∧
        dump.declarations.length = 5 ∧
        (["É", "È", "E", "F.Q", "F.QBAR"].zip dump.declarations).Pairwise fun (x, v) (y, w) =>
          (v.name = w.name ↔ Blurred x y) ∧ (IsAscii x → IsAscii y → v.name ≠ w.name) := by
  obtain ⟨dump, hread, -, hlength, hpairs⟩ :=
    wireNames_eq_iff load_accents [.run 1, .toggle "F.QBAR"]
  have hsignals : ((accents.afterAll [.run 1, .toggle "F.QBAR"]).board.circuit.terminals.filter
      (accents.afterAll [.run 1, .toggle "F.QBAR"]).board.probes.contains).map
        (accents.afterAll [.run 1, .toggle "F.QBAR"]).board.signalName =
          ["É", "È", "E", "F.Q", "F.QBAR"] := by
    decide +kernel
  refine ⟨load_accents, dump, hread, ?_, ?_⟩
  · rw [hlength, ← List.length_map, hsignals]
    rfl
  · rw [← hsignals, List.zip_map_left]
    exact List.pairwise_map.2 hpairs

/-- The two names with accents are both written as an underscore. -/
theorem accents_share_wireName :
    (load {} accentsText).2 = .ok accents ∧
      accents.board.monitored = ["É", "È", "E", "F.Q"] ∧
      ∃ dump, decode? accents.board.waveform = some dump ∧
        dump.declarations.map (·.name) = ["_", "_", "E", "F_Q"] :=
  ⟨load_accents, by decide +kernel, dump (wires accents.board),
    decode?_lines fun _ hw => writable_of_mem_wires hw, by decide +kernel⟩

end Session

end Breadboard
