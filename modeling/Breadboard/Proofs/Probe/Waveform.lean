import Breadboard.Proofs.Board.Operations
import Breadboard.Proofs.Probe.Dump
import Mathlib.Data.List.Chain
import Mathlib.Data.List.Forall2

/-!
# Waveforms tell the traces

Only the changes of a wire are written, and a trace that is shorter than the longest one is
continued with blanks. Whoever reads the file gets all samples back: the changes of a wire in the
file are those that the wire has by itself (`filter_changes`), and of these the last one up to some
cycle is to the sample of that cycle (`getLast?_wireChanges`).

* `value?_dump`: in each cycle, the value of a wire is that of its sample.
* `isChain_values`: a wire never changes to the value that it has.
* `forall₂_wires`: each wire of a board stands for a probed output.
* `forall₂_writtenAs_iff`: the name of a wire, character by character.
* `waveform_decodes`: the file of a board that operations have led to.
-/
namespace Breadboard.Waveform

variable {ws : List Wire} {w : Wire} {n cycle : Nat}

/-! ## Changes of one wire -/

theorem value_injective : Function.Injective value := by
  intro s s' h
  cases s <;> cases s' <;> first | rfl | exact absurd h (by decide)

/-- The changes of a wire in the first cycles. -/
def wireChanges (w : Wire) (n : Nat) : List Change := (List.range n).flatMap (cycleChanges [w])

theorem wireChanges_succ (w : Wire) (n : Nat) :
    wireChanges w (n + 1) = wireChanges w n ++
      if w.changesAt n then [⟨n, w.code, value (w.sample n)⟩] else [] := by
  rw [wireChanges, List.range_succ, List.flatMap_append, ← wireChanges, List.flatMap_singleton,
    cycleChanges]
  cases hn : w.changesAt n <;> simp [hn]

theorem time_lt_of_mem_wireChanges {change : Change} (h : change ∈ wireChanges w n) :
    change.time < n := by
  obtain ⟨cycle, hcycle, hchange⟩ := List.mem_flatMap.1 h
  obtain ⟨w, -, rfl⟩ := List.mem_map.1 hchange
  exact List.mem_range.1 hcycle

/-- The last change up to some cycle is to the sample of that cycle. -/
theorem getLast?_wireChanges (w : Wire) (cycle : Nat) :
    (wireChanges w (cycle + 1)).getLast?.map (·.value) = some (value (w.sample cycle)) := by
  induction cycle with
  | zero => rw [wireChanges_succ, Wire.changesAt, if_pos rfl, List.getLast?_concat, Option.map_some]
  | succ cycle ih =>
    rw [wireChanges_succ]
    by_cases hchange : w.changesAt (cycle + 1) = true
    · rw [if_pos hchange, List.getLast?_concat, Option.map_some]
    · rw [if_neg hchange, List.append_nil, ih]
      have hsame : w.sample cycle = w.sample (cycle + 1) := by
        simpa [Wire.changesAt] using hchange
      rw [hsame]

theorem isChain_wireChanges (w : Wire) (n : Nat) :
    ((wireChanges w n).map (·.value)).IsChain (· ≠ ·) := by
  induction n with
  | zero => exact List.isChain_nil
  | succ n ih =>
    rw [wireChanges_succ, List.map_append]
    by_cases hchange : w.changesAt n = true
    · rw [if_pos hchange]
      refine ih.append (List.isChain_singleton _) fun old hold new hnew => ?_
      cases n with
      | zero => simp [wireChanges] at hold
      | succ n =>
        have hlast := getLast?_wireChanges w n
        rw [List.getLast?_map, hlast] at hold
        cases hold
        cases hnew
        intro hvalue
        have hne : w.sample n ≠ w.sample (n + 1) := by simpa [Wire.changesAt] using hchange
        exact hne (value_injective hvalue)
    · rw [if_neg hchange]
      simpa using ih

theorem filter_wireChanges (hcycle : cycle < n) :
    (wireChanges w n).filter (fun change => change.time ≤ cycle) = wireChanges w (cycle + 1) := by
  induction n with
  | zero => omega
  | succ n ih =>
    rcases Nat.lt_succ_iff_lt_or_eq.1 hcycle with hlt | rfl
    · -- What is written in the last cycle comes after the given one.
      rw [wireChanges_succ, List.filter_append, ih hlt]
      cases w.changesAt n <;> simp [hlt]
    · refine List.filter_eq_self.2 fun change hchange => ?_
      have htime := time_lt_of_mem_wireChanges hchange
      exact decide_eq_true (by omega)

/-! ## Changes of all wires -/

theorem filter_code (hnodup : (ws.map (·.code)).Nodup) (hw : w ∈ ws) :
    ws.filter (·.code = w.code) = [w] := by
  induction ws with
  | nil => cases hw
  | cons other ws ih =>
    rw [List.map_cons, List.nodup_cons] at hnodup
    obtain ⟨hnew, hnodup⟩ := hnodup
    rcases List.mem_cons.1 hw with rfl | hw
    · have hrest : ws.filter (·.code = w.code) = [] := by
        refine List.filter_eq_nil_iff.2 fun other hother hcode => hnew ?_
        exact List.mem_map.2 ⟨other, hother, of_decide_eq_true hcode⟩
      rw [List.filter_cons_of_pos (by simp), hrest]
    · have hne : other.code ≠ w.code := fun hcode => hnew (List.mem_map.2 ⟨w, hw, hcode.symm⟩)
      rw [List.filter_cons_of_neg (by simpa using hne), ih hnodup hw]

theorem filter_cycleChanges (hnodup : (ws.map (·.code)).Nodup) (hw : w ∈ ws) (cycle : Nat) :
    (cycleChanges ws cycle).filter (·.code = w.code) = cycleChanges [w] cycle := by
  have hcomm : (ws.filter (·.changesAt cycle)).filter (·.code = w.code) =
      (ws.filter (·.code = w.code)).filter (·.changesAt cycle) := by
    rw [List.filter_filter, List.filter_filter]
    simp only [Bool.and_comm]
  rw [filter_code hnodup hw] at hcomm
  rw [cycleChanges, List.filter_map, cycleChanges, ← hcomm]
  rfl

/-- The changes of a wire are those that the wire itself has. -/
theorem filter_changes (hnodup : (ws.map (·.code)).Nodup) (hw : w ∈ ws) :
    (dump ws).changes.filter (·.code = w.code) = wireChanges w (duration ws) := by
  rw [dump, List.filter_flatMap, wireChanges]
  exact List.flatMap_congr fun cycle _ => filter_cycleChanges hnodup hw cycle

/-- In each cycle, the value of a wire is that of its sample. -/
theorem value?_dump (hnodup : (ws.map (·.code)).Nodup) (hw : w ∈ ws) (h : cycle < duration ws) :
    (dump ws).value? w.code cycle = some (value (w.sample cycle)) := by
  have hsplit : (dump ws).changes.filter (fun change => change.code = w.code ∧ change.time ≤ cycle)
      = ((dump ws).changes.filter (·.code = w.code)).filter (·.time ≤ cycle) := by
    simp [List.filter_filter, Bool.and_comm]
  rw [Dump.value?, hsplit, filter_changes hnodup hw, filter_wireChanges h, getLast?_wireChanges]

-- The shorter of two traces is continued with blanks, of which only the first is written.
example :
    let ws : List Wire := [⟨"!", "A", #[.low, .high, .high]⟩, ⟨"#", "B", #[.low]⟩]
    (List.range 3).map ((dump ws).value? "#") = [some '0', some 'x', some 'x'] ∧
      (dump ws).values "#" = ['0', 'x'] := by decide

/-- A wire never changes to the value that it has. -/
theorem isChain_values (hnodup : (ws.map (·.code)).Nodup) (hw : w ∈ ws) :
    ((dump ws).values w.code).IsChain (· ≠ ·) := by
  rw [Dump.values, filter_changes hnodup hw]
  exact isChain_wireChanges w (duration ws)

/-! ## The longest trace -/

theorem duration_eq (ws : List Wire) : duration ws = (ws.map (·.trace.size)).max?.getD 0 := by
  rw [duration, List.foldl_max, Nat.zero_max]

theorem size_le_duration (hw : w ∈ ws) : w.trace.size ≤ duration ws := by
  have hsize : w.trace.size ∈ ws.map (·.trace.size) := List.mem_map.2 ⟨w, hw, rfl⟩
  obtain ⟨n, hn⟩ := Option.isSome_iff_exists.1 (List.isSome_max?_of_mem hsize)
  rw [duration_eq, hn]
  exact (List.max?_eq_some_iff.1 hn).2 _ hsize

theorem duration_eq_zero_or (ws : List Wire) :
    duration ws = 0 ∨ ∃ w ∈ ws, w.trace.size = duration ws := by
  rw [duration_eq]
  cases hmax : (ws.map (·.trace.size)).max? with
  | none => exact .inl rfl
  | some n => exact .inr (List.mem_map.1 (List.max?_eq_some_iff.1 hmax).1)

/-! ## Wires of a board -/

variable {b : Board}

theorem writable_of_mem_wires (hw : w ∈ wires b) : w.Writable := by
  obtain ⟨i, hi, rfl⟩ := List.mem_mapIdx.1 hw
  refine ⟨?_, isWord_wireName _, ?_⟩ <;> rw [String.toList_ofList]
  · exact isWord_wireCode i
  · exact wireCode_ne_nil i

theorem nodup_codes (b : Board) : ((wires b).map (·.code)).Nodup := by
  rw [List.Nodup, List.pairwise_map]
  refine List.pairwise_iff_getElem.2 fun i j hi hj hij hcode => ?_
  simp only [wires, List.getElem_mapIdx] at hcode
  exact absurd (wireCode_injective (String.ofList_injective hcode)) hij.ne

theorem forall₂_traces (p : Probes) (c : Circuit) :
    List.Forall₂ (fun t x => x.1 = t ∧ p.trace? t = some x.2) (c.terminals.filter p.contains)
      (p.traces c) := by
  rw [Probes.traces]
  induction c.terminals with
  | nil => exact .nil
  | cons t ts ih =>
    rw [List.filter_cons, List.filterMap_cons, Probes.contains_eq_isSome_trace?]
    cases htrace : p.trace? t with
    | none => exact ih
    | some trace => exact .cons ⟨rfl, htrace⟩ ih

/-- The wires of a board, each next to the output that it stands for. -/
theorem forall₂_wires (b : Board) :
    List.Forall₂ (fun t w => w.name = wireName (b.signalName t) ∧
        b.probes.trace? t = some w.trace)
      (b.circuit.terminals.filter b.probes.contains) (wires b) := by
  obtain ⟨hlength, hget⟩ := List.forall₂_iff_get.1 (forall₂_traces b.probes b.circuit)
  refine List.forall₂_iff_get.2 ⟨by simp [wires, Board.traces, hlength], fun i hi hi' => ?_⟩
  obtain ⟨hterminal, htrace⟩ := hget i hi (hlength ▸ hi)
  simp only [List.get_eq_getElem] at hterminal htrace
  simp [wires, Board.traces, hterminal, htrace]

/-- The traces of the wires of a board are those of its probes. -/
theorem exists_wire_iff (hb : b.WellFormed) {samples : Trace} :
    (∃ w ∈ wires b, w.trace = samples) ↔ ∃ probe ∈ b.probes.probes, probe.trace = samples := by
  have hwires : (wires b).map (·.trace) = (b.probes.traces b.circuit).map Prod.snd := by
    refine List.ext_getElem ?_ fun i hi hi' => ?_ <;> simp [wires, Board.traces]
  rw [← List.mem_map, hwires, List.mem_map]
  constructor
  · rintro ⟨⟨t, _⟩, ht, rfl⟩
    exact ⟨_, (hb.probes.mem_traces_iff hb.circuit.nodup).1 ht, rfl⟩
  · rintro ⟨⟨t, _⟩, hprobe, rfl⟩
    exact ⟨_, (hb.probes.mem_traces_iff hb.circuit.nodup).2 hprobe, rfl⟩

/-! ## Names of wires -/

/-- A letter or digit of ASCII, or an underscore. -/
def IsPlain (c : Char) : Prop :=
  ('A' ≤ c ∧ c ≤ 'Z') ∨ ('a' ≤ c ∧ c ≤ 'z') ∨ ('0' ≤ c ∧ c ≤ '9') ∨ c = '_'

/-- How a character of a signal is written in the name of its wire. -/
inductive WrittenAs (c : Char) : Char → Prop where
  | kept : IsPlain c → WrittenAs c c
  | replaced : ¬IsPlain c → WrittenAs c '_'

theorem isWireChar_iff {c : Char} : isWireChar c = true ↔ IsPlain c := by
  have hranges : isWireChar c = (((decide ('A' ≤ c ∧ c ≤ 'Z') ||
      (decide ('a' ≤ c) && decide (c ≤ 'z'))) || (decide ('0' ≤ c) && decide (c ≤ '9'))) ||
        c == '_') := rfl
  simp only [hranges, IsPlain, Bool.or_eq_true, Bool.and_eq_true, decide_eq_true_eq, beq_iff_eq,
    or_assoc]

theorem writtenAs_iff {c written : Char} :
    WrittenAs c written ↔ (if isWireChar c then c else '_') = written := by
  by_cases hc : IsPlain c
  · rw [if_pos (isWireChar_iff.2 hc)]
    constructor
    · rintro (_ | hnot)
      · rfl
      · exact absurd hc hnot
    · rintro rfl
      exact .kept hc
  · rw [if_neg (mt isWireChar_iff.1 hc)]
    constructor
    · rintro (hplain | _)
      · exact absurd hplain hc
      · rfl
    · rintro rfl
      exact .replaced hc

/-- The name of a wire is the one in which each character of the signal is written as it should
be. -/
theorem forall₂_writtenAs_iff {signal name : String} :
    List.Forall₂ WrittenAs signal.toList name.toList ↔ name = wireName signal := by
  have hwritten : WrittenAs = fun c written => (if isWireChar c then c else '_') = written :=
    funext₂ fun _ _ => propext writtenAs_iff
  rw [hwritten, ← List.forall₂_map_left_iff, List.forall₂_eq_eq_eq, wireName, eq_comm,
    ← String.toList_inj, String.toList_ofList]

/-! ## The file of a board -/

/-- A wire of a file tells the trace of an output: it has the name of the signal, as far as a wire
can have it, and the values of its samples in a number of cycles. Cycles past the end of the trace
are unknown. -/
structure Tells (dump : Dump) (b : Board) (length : Nat) (t : Terminal) (v : Declaration) :
    Prop where
  name : List.Forall₂ WrittenAs (b.signalName t).toList v.name.toList
  values : ∃ samples, b.probes.trace? t = some samples ∧ ∀ cycle < length,
    dump.value? v.code cycle = some (match samples[cycle]? with
      | some .low => '0'
      | some .high => '1'
      | some .blank | none => 'x')
  /-- No value is written twice in a row. -/
  changes : (dump.values v.code).IsChain (· ≠ ·)

theorem forall₂_tells (b : Board) :
    List.Forall₂ (Tells (dump (wires b)) b (duration (wires b)))
      (b.circuit.terminals.filter b.probes.contains) (dump (wires b)).declarations := by
  refine List.forall₂_map_right_iff.2 ?_
  refine List.forall₂_iff_get.2 ⟨(forall₂_wires b).length_eq, fun i hi hi' => ?_⟩
  obtain ⟨hname, htrace⟩ := (forall₂_wires b).get hi hi'
  have hmem : (wires b).get ⟨i, hi'⟩ ∈ wires b := List.get_mem _ _
  refine ⟨forall₂_writtenAs_iff.2 hname, ⟨_, htrace, fun cycle hcycle => ?_⟩,
    isChain_values (nodup_codes b) hmem⟩
  rw [value?_dump (nodup_codes b) hmem hcycle, Wire.sample]
  rcases ((wires b).get ⟨i, hi'⟩).trace[cycle]? with _ | _ | _ | _ <;> rfl

/-- **Waveforms.** The file of a board can be read, whatever has been done to the board. It declares
a wire for each probe, in the order of the circuit and each under a code of its own, and its times
count the cycles up to the length of the longest trace. What the file says of a wire is the trace
of its output. -/
theorem waveform_decodes (passLimit : Nat) (ops : List Operation) :
    let b := Board.ofOperations passLimit ops
    let probed := b.circuit.terminals.filter b.probes.contains
    ∃ dump length, decode? b.waveform = some dump ∧
      probed.Perm (b.probes.probes.map (·.terminal)) ∧
      List.Forall₂ (Tells dump b length) probed dump.declarations ∧
      (dump.declarations.map (·.code)).Nodup ∧
      (∀ change ∈ dump.changes, change.code ∈ dump.declarations.map (·.code)) ∧
      dump.times = List.range (length + 1) ∧
      (∀ probe ∈ b.probes.probes, probe.trace.size ≤ length) ∧
      (length = 0 ∨ ∃ probe ∈ b.probes.probes, probe.trace.size = length) := by
  intro b probed
  have hwf : b.WellFormed := (Board.wellFormed_empty passLimit).foldl_apply ops
  have hread : decode? b.waveform = some (dump (wires b)) :=
    decode?_lines fun w hw => writable_of_mem_wires hw
  have hcodes : (dump (wires b)).declarations.map (·.code) = (wires b).map (·.code) := by
    simp [dump]
  refine ⟨dump (wires b), duration (wires b), hread, hwf.probes.perm_terminals hwf.circuit.nodup,
    forall₂_tells b, ?_, ?_, rfl, ?_, ?_⟩
  · rw [hcodes]
    exact nodup_codes b
  · intro change hchange
    obtain ⟨cycle, -, hchange⟩ := List.mem_flatMap.1 hchange
    obtain ⟨w, hw, rfl⟩ := List.mem_map.1 hchange
    rw [hcodes]
    exact List.mem_map.2 ⟨w, List.mem_of_mem_filter hw, rfl⟩
  · intro probe hprobe
    obtain ⟨w, hw, htrace⟩ := (exists_wire_iff hwf).2 ⟨probe, hprobe, rfl⟩
    rw [← htrace]
    exact size_le_duration hw
  · rcases duration_eq_zero_or (wires b) with hzero | ⟨w, hw, hsize⟩
    · exact .inl hzero
    · obtain ⟨probe, hprobe, htrace⟩ := (exists_wire_iff hwf).1 ⟨w, hw, rfl⟩
      exact .inr ⟨probe, hprobe, htrace ▸ hsize⟩

end Breadboard.Waveform
