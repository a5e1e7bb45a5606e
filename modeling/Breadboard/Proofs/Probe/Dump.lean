import Breadboard.Probe.Waveform
import Mathlib.Data.List.Basic
import Mathlib.Logic.Function.Basic

/-!
# Reading waveform files

A reader of value change dumps, which takes a file line by line: declarations of wires, times, and
changes of wires at the last time that was read. What it makes of the file of a board is known from
the wires of the board.

* `wireCode_injective`: no two wires have the same code.
* `entryOf?_declaration`, `entryOf?_timestamp`, `entryOf?_changeLine`: each line of a file is read
  as what it was written for.
* `decode?_lines`: the file as a whole.
-/
namespace Breadboard.Waveform

/-! ## The reader -/

/-- What a line of a file says. -/
inductive Entry where
  /-- A command that does not concern a wire. -/
  | command
  | declare (code name : String)
  | time (cycle : Nat)
  | change (code : String) (value : Char)

/-- Reads a line of a file. -/
def entryOf? (line : List Char) : Option Entry :=
  match line with
  | [] => none
  | '#' :: digits =>
    if digits ≠ [] ∧ digits.all Char.isDigit then some (.time (Nat.ofDigitChars 10 digits 0))
    else none
  | '$' :: _ =>
    match (Text.pieces ' ' line).map String.ofList with
    | ["$var", "wire", "1", code, name, "$end"] => some (.declare code name)
    | ["$timescale", _, _, "$end"] | ["$scope", "module", _, "$end"] | ["$upscope", "$end"]
    | ["$enddefinitions", "$end"] => some .command
    | _ => none
  | value :: code =>
    if value ∈ ['0', '1', 'x'] ∧ code ≠ [] then some (.change (String.ofList code) value) else none

/-- A wire as it is declared in a file. -/
structure Declaration where
  code : String
  name : String

/-- A change of a wire. -/
structure Change where
  time : Nat
  code : String
  value : Char

/-- What has been read of a file. -/
structure Dump where
  declarations : List Declaration := []
  times : List Nat := []
  changes : List Change := []

namespace Dump

/-- Adds a line of a file. Wires are declared before the first time, and change after it. -/
def add? (d : Dump) : Entry → Option Dump
  | .command => some d
  | .declare code name =>
    if d.times = [] then some { d with declarations := d.declarations ++ [⟨code, name⟩] }
    else none
  | .time cycle => some { d with times := d.times ++ [cycle] }
  | .change code value =>
    d.times.getLast?.map fun time => { d with changes := d.changes ++ [⟨time, code, value⟩] }

/-- The values that a wire takes, one after the other. -/
def values (d : Dump) (code : String) : List Char :=
  (d.changes.filter (·.code = code)).map (·.value)

/-- The value of a wire at some time: that of its last change up to then. -/
def value? (d : Dump) (code : String) (cycle : Nat) : Option Char :=
  ((d.changes.filter fun change => change.code = code ∧ change.time ≤ cycle).getLast?).map (·.value)

end Dump

/-- Reads a line of a file and adds it. -/
def Dump.read? (d : Dump) (line : List Char) : Option Dump := (entryOf? line).bind d.add?

/-- Reads a whole file. Its last line has to end, too. -/
def decode? (text : String) : Option Dump :=
  let lines := Text.pieces '\n' text.toList
  if lines.getLast? = some [] then lines.dropLast.foldlM Dump.read? {} else none

/-! ## Codes -/

/-- The character of a code for the remainder of a position. -/
theorem toNat_codeChar (i : Nat) : (Char.ofNat (33 + i % codeBase)).toNat = 33 + i % codeBase := by
  have hlt : i % codeBase < 94 := Nat.mod_lt i (by decide)
  have hvalid : (33 + i % codeBase).isValidChar := .inl (by omega)
  rw [Char.ofNat, dif_pos hvalid]
  rfl

/-- The characters of codes are printable, and no blanks. -/
theorem range_of_mem_wireCode {i : Nat} {c : Char} (h : c ∈ wireCode i) :
    33 ≤ c.toNat ∧ c.toNat < 127 := by
  have hchar : ∀ i, 33 ≤ (Char.ofNat (33 + i % codeBase)).toNat ∧
      (Char.ofNat (33 + i % codeBase)).toNat < 127 := by
    intro i
    have hlt : i % codeBase < 94 := Nat.mod_lt i (by decide)
    rw [toNat_codeChar]
    omega
  fun_induction wireCode i with
  | case1 i _ hi =>
    rw [List.mem_singleton.1 h]
    exact hchar i
  | case2 i _ hi ih =>
    rcases List.mem_cons.1 h with rfl | h
    · exact hchar i
    · exact ih h

theorem wireCode_ne_nil (i : Nat) : wireCode i ≠ [] := by
  unfold wireCode
  split <;> simp

theorem wireCode_injective : Function.Injective wireCode := by
  intro i j h
  induction i using Nat.strongRecOn generalizing j with
  | ind i ih =>
    have hchar : Char.ofNat (33 + i % codeBase) = Char.ofNat (33 + j % codeBase) →
        i % codeBase = j % codeBase := by
      intro heq
      have hnat := congrArg Char.toNat heq
      rw [toNat_codeChar, toNat_codeChar] at hnat
      omega
    rw [wireCode, wireCode.eq_def j] at h
    by_cases hi : i < codeBase <;> by_cases hj : j < codeBase
    · rw [if_pos hi, if_pos hj] at h
      have hmod := hchar (List.cons.inj h).1
      rwa [Nat.mod_eq_of_lt hi, Nat.mod_eq_of_lt hj] at hmod
    · rw [if_pos hi, if_neg hj] at h
      exact absurd (List.cons.inj h).2.symm (wireCode_ne_nil _)
    · rw [if_neg hi, if_pos hj] at h
      exact absurd (List.cons.inj h).2 (wireCode_ne_nil _)
    · rw [if_neg hi, if_neg hj] at h
      obtain ⟨hhead, htail⟩ := List.cons.inj h
      have hmod := hchar hhead
      simp only [codeBase] at hi hj hmod htail ih
      have hdiv := ih (i / 94 - 1) (by omega) htail
      omega

/-! ## Lines -/

/-- A text that may stand in a line as one of its words. -/
def IsWord (cs : List Char) : Prop := ' ' ∉ cs ∧ '\n' ∉ cs

theorem isWord_wireCode (i : Nat) : IsWord (wireCode i) := by
  refine ⟨fun h => ?_, fun h => ?_⟩ <;>
    exact absurd (range_of_mem_wireCode h).1 (by decide)

theorem isWord_wireName (signal : String) : IsWord (wireName signal).toList := by
  have hmem : ∀ c ∈ (wireName signal).toList, isWireChar c = true := by
    intro c hc
    rw [wireName, String.toList_ofList] at hc
    obtain ⟨c', -, rfl⟩ := List.mem_map.1 hc
    split
    · assumption
    · rfl
  exact ⟨fun h => absurd (hmem _ h) (by decide), fun h => absurd (hmem _ h) (by decide)⟩

/-- The wire can be written in a file. -/
structure Wire.Writable (w : Wire) : Prop where
  code : IsWord w.code.toList
  name : IsWord w.name.toList
  code_ne_nil : w.code.toList ≠ []

variable {w : Wire}

theorem toList_declaration (w : Wire) :
    w.declaration.toList = "$var".toList ++ ' ' :: ("wire".toList ++ ' ' :: ("1".toList ++ ' ' ::
      (w.code.toList ++ ' ' :: (w.name.toList ++ ' ' :: "$end".toList)))) := by
  have hline : w.declaration = "$var wire 1 " ++ w.code ++ " " ++ w.name ++ " $end" := rfl
  have hstart : "$var wire 1 ".toList =
      "$var".toList ++ ' ' :: ("wire".toList ++ ' ' :: ("1".toList ++ [' '])) := by decide
  simp only [hline, hstart, String.toList_append, List.append_assoc, List.cons_append,
    List.nil_append]
  rfl

/-- The line that declares a wire is read as that. -/
theorem entryOf?_declaration (hw : w.Writable) :
    entryOf? w.declaration.toList = some (.declare w.code w.name) := by
  have hpieces : Text.pieces ' ' w.declaration.toList =
      ["$var".toList, "wire".toList, "1".toList, w.code.toList, w.name.toList, "$end".toList] := by
    rw [toList_declaration, Text.pieces_append_cons (by decide),
      Text.pieces_append_cons (by decide), Text.pieces_append_cons (by decide),
      Text.pieces_append_cons hw.code.1, Text.pieces_append_cons hw.name.1,
      Text.pieces_of_notMem (by decide)]
  have hcons : ∃ rest, w.declaration.toList = '$' :: rest := ⟨_, toList_declaration w⟩
  obtain ⟨rest, hrest⟩ := hcons
  rw [hrest] at hpieces ⊢
  simp only [entryOf?, hpieces, List.map_cons, List.map_nil, String.ofList_toList]

theorem toList_timestamp (cycle : Nat) :
    (timestamp cycle).toList = '#' :: Nat.toDigits 10 cycle := by
  have htext : ∀ s : String, toString s = s := fun _ => rfl
  simp [timestamp, htext]

theorem entryOf?_timestamp (cycle : Nat) :
    entryOf? (timestamp cycle).toList = some (.time cycle) := by
  have hdigits : (Nat.toDigits 10 cycle).all Char.isDigit = true :=
    List.all_eq_true.2 fun c hc => Nat.isDigit_of_mem_toDigits (by decide) (by decide) hc
  simp [toList_timestamp, entryOf?, hdigits, Nat.toDigits_ne_nil, Nat.ofDigitChars_ten_toDigits]

/-- The line that writes a sample of a wire. -/
def Wire.changeLine (w : Wire) (s : Sample) : String := String.singleton (value s) ++ w.code

theorem toList_changeLine (w : Wire) (s : Sample) :
    (w.changeLine s).toList = value s :: w.code.toList := by
  simp [Wire.changeLine]

theorem entryOf?_changeLine (hw : w.Writable) (s : Sample) :
    entryOf? (w.changeLine s).toList = some (.change w.code (value s)) := by
  rw [toList_changeLine]
  cases s <;> simp [entryOf?, value, hw.code_ne_nil]

/-! ## Files -/

variable {ws : List Wire} {d : Dump}

theorem foldlM_declarations (hws : ∀ w ∈ ws, w.Writable) (hd : d.times = []) :
    (ws.map fun w => w.declaration.toList).foldlM Dump.read? d =
      some { d with declarations := d.declarations ++ ws.map fun w => ⟨w.code, w.name⟩ } := by
  induction ws generalizing d with
  | nil => simp
  | cons w ws ih =>
    obtain ⟨hw, hws⟩ := List.forall_mem_cons.1 hws
    have hread : d.read? w.declaration.toList =
        some { d with declarations := d.declarations ++ [⟨w.code, w.name⟩] } := by
      rw [Dump.read?, entryOf?_declaration hw, Option.bind_some, Dump.add?, if_pos hd]
    have hrest := ih (d := { d with declarations := d.declarations ++ [⟨w.code, w.name⟩] }) hws hd
    rw [List.map_cons, List.foldlM_cons, hread, Option.bind_eq_bind, Option.bind_some, hrest]
    simp

def cycleChanges (ws : List Wire) (cycle : Nat) : List Change :=
  (ws.filter (·.changesAt cycle)).map fun w => ⟨cycle, w.code, value (w.sample cycle)⟩

theorem foldlM_changes {cycle : Nat} (hws : ∀ w ∈ ws, w.Writable)
    (hd : d.times.getLast? = some cycle) :
    (ws.map fun w => (w.changeLine (w.sample cycle)).toList).foldlM Dump.read? d =
      some { d with
        changes := d.changes ++ ws.map fun w => ⟨cycle, w.code, value (w.sample cycle)⟩ } := by
  induction ws generalizing d with
  | nil => simp
  | cons w ws ih =>
    obtain ⟨hw, hws⟩ := List.forall_mem_cons.1 hws
    have hread : d.read? (w.changeLine (w.sample cycle)).toList =
        some { d with changes := d.changes ++ [⟨cycle, w.code, value (w.sample cycle)⟩] } := by
      rw [Dump.read?, entryOf?_changeLine hw, Option.bind_some, Dump.add?, hd, Option.map_some]
    have hrest := ih
      (d := { d with changes := d.changes ++ [⟨cycle, w.code, value (w.sample cycle)⟩] }) hws hd
    rw [List.map_cons, List.foldlM_cons, hread, Option.bind_eq_bind, Option.bind_some, hrest]
    simp

theorem foldlM_time (cycle : Nat) (lines : List (List Char)) :
    ((timestamp cycle).toList :: lines).foldlM Dump.read? d =
      lines.foldlM Dump.read? { d with times := d.times ++ [cycle] } := by
  rw [List.foldlM_cons, Dump.read?, entryOf?_timestamp]
  rfl

theorem foldlM_cycle (cycle : Nat) (hws : ∀ w ∈ ws, w.Writable) :
    ((cycleLines ws cycle).map String.toList).foldlM Dump.read? d =
      some { d with
        times := d.times ++ [cycle]
        changes := d.changes ++ cycleChanges ws cycle } := by
  have hwritten : ∀ w ∈ ws.filter (·.changesAt cycle), w.Writable :=
    fun w hw => hws w (List.mem_of_mem_filter hw)
  rw [cycleLines, List.map_cons, foldlM_time, List.map_map]
  exact foldlM_changes hwritten List.getLast?_concat

theorem foldlM_cycles (n : Nat) (hws : ∀ w ∈ ws, w.Writable) :
    (((List.range n).flatMap (cycleLines ws)).map String.toList).foldlM Dump.read? d =
      some { d with
        times := d.times ++ List.range n
        changes := d.changes ++ (List.range n).flatMap (cycleChanges ws) } := by
  induction n with
  | zero => simp
  | succ n ih =>
    rw [List.range_succ, List.flatMap_append, List.map_append, List.foldlM_append, ih,
      Option.bind_eq_bind, Option.bind_some, List.flatMap_singleton, List.flatMap_append,
      List.flatMap_singleton, foldlM_cycle n hws, List.append_assoc, List.append_assoc]

/-- What there is to be read in the file of given wires. -/
def dump (ws : List Wire) : Dump where
  declarations := ws.map fun w => ⟨w.code, w.name⟩
  times := List.range (duration ws + 1)
  changes := (List.range (duration ws)).flatMap (cycleChanges ws)

/-- The lines of a file that do not concern a wire. -/
def commands : List String :=
  ["$timescale 1 ns $end", "$scope module logsim $end", "$upscope $end", "$enddefinitions $end"]

theorem read?_command {line : String} (h : line ∈ commands) (d : Dump) :
    d.read? line.toList = some d := by
  simp only [commands, List.mem_cons, List.not_mem_nil, or_false] at h
  rcases h with rfl | rfl | rfl | rfl <;> rfl

theorem foldlM_commands (ls : List String) (h : ∀ line ∈ ls, line ∈ commands) (d : Dump) :
    (ls.map String.toList).foldlM Dump.read? d = some d := by
  induction ls with
  | nil => rfl
  | cons line ls ih =>
    obtain ⟨hline, hls⟩ := List.forall_mem_cons.1 h
    rw [List.map_cons, List.foldlM_cons, read?_command hline]
    exact ih hls

theorem foldlM_lines (hws : ∀ w ∈ ws, w.Writable) :
    ((lines ws).map String.toList).foldlM Dump.read? {} = some (dump ws) := by
  have hheader := foldlM_commands ["$timescale 1 ns $end", "$scope module logsim $end"]
    (by decide) {}
  have hdeclarations := foldlM_declarations (d := {}) hws rfl
  have hfooter := foldlM_commands ["$upscope $end", "$enddefinitions $end"] (by decide)
  have hcycles := foldlM_cycles
    (d := { declarations := ws.map fun w => ⟨w.code, w.name⟩ }) (duration ws) hws
  have hnames : (ws.map Wire.declaration).map String.toList =
      ws.map fun w => w.declaration.toList := List.map_map
  simp only [lines, List.map_append, List.foldlM_append, hheader, hnames, Option.bind_eq_bind,
    Option.bind_some, hdeclarations, hfooter]
  rw [List.nil_append, hcycles, Option.bind_some, List.map_singleton, foldlM_time]
  simp [dump, List.range_succ]

theorem newline_notMem_lines (hws : ∀ w ∈ ws, w.Writable) :
    ∀ line ∈ lines ws, '\n' ∉ line.toList := by
  have hcommands : ∀ line ∈ commands, '\n' ∉ line.toList := by decide
  have htimestamp : ∀ cycle, '\n' ∉ (timestamp cycle).toList := by
    intro cycle h
    rw [toList_timestamp] at h
    rcases List.mem_cons.1 h with h | h
    · exact absurd h (by decide)
    · exact absurd (Nat.isDigit_of_mem_toDigits (by decide) (by decide) h) (by decide)
  intro line hline
  simp only [lines, List.mem_append] at hline
  rcases hline with (((hline | hline) | hline) | hline) | hline
  · exact hcommands line (List.mem_of_mem_take (i := 2) hline)
  · obtain ⟨w, hw, rfl⟩ := List.mem_map.1 hline
    have hcode := (hws w hw).code.2
    have hname := (hws w hw).name.2
    rw [toList_declaration]
    simp [hcode, hname]
  · exact hcommands line (List.mem_of_mem_drop (i := 2) hline)
  · obtain ⟨cycle, -, hline⟩ := List.mem_flatMap.1 hline
    rcases List.mem_cons.1 hline with rfl | hline
    · exact htimestamp cycle
    · obtain ⟨w, hw, rfl⟩ := List.mem_map.1 hline
      have hcode := (hws w (List.mem_of_mem_filter hw)).code.2
      change '\n' ∉ (w.changeLine (w.sample cycle)).toList
      rw [toList_changeLine, List.mem_cons, not_or]
      exact ⟨by cases w.sample cycle <;> decide, hcode⟩
  · rw [List.mem_singleton.1 hline]
    exact htimestamp _

/-- The file of given wires is read as what it was written for. -/
theorem decode?_lines (hws : ∀ w ∈ ws, w.Writable) :
    decode? (String.join ((lines ws).map (· ++ "\n"))) = some (dump ws) := by
  have htext : (String.join ((lines ws).map (· ++ "\n"))).toList =
      ((lines ws).map String.toList).flatMap fun l => l ++ ['\n'] := by
    simp [String.toList_join, List.flatMap_map]
  have hlines : ∀ l ∈ (lines ws).map String.toList, '\n' ∉ l := by
    intro l hl
    obtain ⟨line, hline, rfl⟩ := List.mem_map.1 hl
    exact newline_notMem_lines hws line hline
  rw [decode?, htext, Text.pieces_flatMap hlines]
  simp [foldlM_lines hws]

end Breadboard.Waveform
