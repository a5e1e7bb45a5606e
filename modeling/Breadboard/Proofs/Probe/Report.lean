import Breadboard.Probe.Report
import Mathlib.Data.List.DropRight

/-!
# Reading reports

A reader of reports. The first line gives the number of cycles. Each row of the table is cut at its
bars: the first cell is a signal name with blanks around it, and the second one is a blank and then
the trace, one character for each cycle. What follows the trace is left alone, for blanks at its end
look like those that fill the column.

* `toList_row`, `toList_report`: the lines of a report, if no cell has more than one line.
* `rowOf?_rowLine`: a row is read as the signal that it was written for.
* `decode?_report`: the report of a board.
-/
namespace Breadboard

/-- The sample that is shown as a given character. -/
def Sample.ofMark? : Char → Option Sample
  | '-' => some low
  | '#' => some high
  | ' ' => some blank
  | _ => none

theorem Sample.ofMark?_mark (s : Sample) : ofMark? s.mark = some s := by
  cases s <;> rfl

namespace Report

/-! ## The reader -/

/-- A text without the blanks around it. -/
def unpadded (cs : List Char) : List Char := (cs.dropWhile (· == ' ')).rdropWhile (· == ' ')

/-- Reads the line above the table. -/
def cyclesOf? (line : List Char) : Option Nat :=
  match Text.pieces ' ' line with
  | [_, digits, _] =>
    if digits ≠ [] ∧ digits.all Char.isDigit then some (Nat.ofDigitChars 10 digits 0) else none
  | _ => none

/-- Reads a row, given the number of cycles. -/
def rowOf? (cycles : Nat) (line : List Char) : Option (String × Trace) :=
  match Text.pieces '|' line with
  | [[], signal, ' ' :: trace, []] =>
    if cycles ≤ trace.length then
      ((trace.take cycles).mapM Sample.ofMark?).map fun samples =>
        (String.ofList (unpadded signal), samples.toArray)
    else none
  | _ => none

/-- The rows among the lines of a table. Of the lines that begin with a bar, the first one is the
title. -/
def rowsOf (table : List (List Char)) : List (List Char) :=
  (table.filter fun line => line.head? = some '|').drop 1

/-- Reads a whole report. -/
def decode? (text : String) : Option (Nat × List (String × Trace)) :=
  match Text.pieces '\n' text.toList with
  | [] => none
  | first :: table =>
    (cyclesOf? first).bind fun cycles =>
      ((rowsOf table).mapM (rowOf? cycles)).map fun rows => (cycles, rows)

end Report

/-! ## Lines of a table -/

namespace Text

/-- A text without line feeds has at most one line. -/
theorem length_printedLines_le {text : String} (h : '\n' ∉ text.toList) :
    (printedLines text).length ≤ 1 := by
  by_cases htext : text = "" <;> simp [printedLines, pieces_of_notMem h, htext, pieces]

theorem head_printedLines {text : String} (h : '\n' ∉ text.toList) :
    (printedLines text)[0]?.getD "" = text := by
  by_cases htext : text = "" <;> simp [printedLines, pieces_of_notMem h, htext, pieces]

namespace Table

/-- A rule as it is drawn, without the line feed behind it. -/
def ruleLine (widths : List Nat) : List Char :=
  '+' :: widths.flatMap fun w => List.replicate (w + 2) '-' ++ ['+']

/-- A cell as it stands between two bars. -/
def field (w : Nat) (cell : String) : List Char :=
  ' ' :: (cell.toList ++ List.replicate (w - visibleWidth cell.toList + 1) ' ')

/-- A row of two cells as it is drawn, without the line feed behind it. -/
def rowLine (w w' : Nat) (cell cell' : String) : List Char :=
  '|' :: (field w cell ++ '|' :: (field w' cell' ++ ['|']))

theorem toList_rule (widths : List Nat) : (rule widths).toList = ruleLine widths ++ ['\n'] := by
  simp [rule, ruleLine, String.toList_join, List.flatMap_map]

/-- Cells without line feeds are drawn on one line. -/
theorem row_eq_line {cells : List String} (h : ∀ cell ∈ cells, '\n' ∉ cell.toList)
    (widths : List Nat) : row widths cells = line widths cells := by
  have hle : ∀ n ∈ (cells.map printedLines).map List.length, n ≤ 1 := by
    rw [List.map_map, List.forall_mem_map]
    exact fun cell hcell => length_printedLines_le (h cell hcell)
  have hheight : ((cells.map printedLines).map List.length).foldl max 1 = 1 := by
    rw [List.foldl_max]
    cases hmax : ((cells.map printedLines).map List.length).max? with
    | none => rfl
    | some n => exact Nat.max_eq_left (hle n (List.max?_mem hmax))
  have hfirst : (cells.map printedLines).map (fun ls => ls[0]?.getD "") = cells := by
    rw [List.map_map]
    exact (List.map_congr_left fun cell hcell => head_printedLines (h cell hcell)).trans
      (List.map_id' cells)
  simp only [row, hheight, List.range_one, List.map_singleton, hfirst]
  simp [String.join]

theorem toList_row {cell cell' : String} (h : '\n' ∉ cell.toList) (h' : '\n' ∉ cell'.toList)
    (w w' : Nat) : (row [w, w'] [cell, cell']).toList = rowLine w w' cell cell' ++ ['\n'] := by
  rw [row_eq_line (by simp [h, h'])]
  simp [line, rowLine, field, spaces, List.replicate_succ']

theorem notMem_ruleLine (widths : List Nat) : '\n' ∉ ruleLine widths := by
  simp [ruleLine]

theorem notMem_field {c : Char} {cell : String} (hblank : c ≠ ' ') (h : c ∉ cell.toList) (w : Nat) :
    c ∉ field w cell := by
  simp [field, hblank, h]

theorem notMem_rowLine {cell cell' : String} (h : '\n' ∉ cell.toList) (h' : '\n' ∉ cell'.toList)
    (w w' : Nat) : '\n' ∉ rowLine w w' cell cell' := by
  have hcell := notMem_field (by decide) h w
  have hcell' := notMem_field (by decide) h' w'
  simp [rowLine, hcell, hcell']

end Table

end Text

namespace Report

open Text Table

/-! ## Rows -/

variable {name : String} {samples : Trace} {cycles : Nat}

/-- The padding of a text that has no blanks itself is what is around it. -/
theorem unpadded_field (hne : name.toList ≠ []) (h : ' ' ∉ name.toList) (w : Nat) :
    unpadded (field w name) = name.toList := by
  have hdrop : (field w name).dropWhile (· == ' ') =
      name.toList ++ List.replicate (w - visibleWidth name.toList + 1) ' ' := by
    obtain ⟨c, cs, hcs⟩ := List.exists_cons_of_ne_nil hne
    have hc : c ≠ ' ' := fun hc => h (by simp [hcs, hc])
    simp [field, hcs, hc]
  have hkeep : name.toList.rdropWhile (· == ' ') = name.toList :=
    List.rdropWhile_eq_self_iff.2 fun hl hlast =>
      h (by simpa using (beq_iff_eq.1 hlast) ▸ List.getLast_mem hl)
  rw [unpadded, hdrop]
  induction w - visibleWidth name.toList + 1 with
  | zero => rw [List.replicate_zero, List.append_nil, hkeep]
  | succ n ih =>
    rw [List.replicate_succ', ← List.append_assoc, List.rdropWhile_concat_pos _ _ _ (by simp), ih]

theorem mapM_ofMark? (samples : List Sample) :
    (samples.map Sample.mark).mapM Sample.ofMark? = some samples := by
  induction samples with
  | nil => rfl
  | cons s samples ih => simp [Sample.ofMark?_mark, ih]

theorem toList_text (samples : Trace) : samples.text.toList = samples.toList.map Sample.mark :=
  String.toList_ofList

theorem notMem_text {c : Char} (h : Sample.ofMark? c = none) (samples : Trace) :
    c ∉ samples.text.toList := by
  rw [toList_text, List.mem_map]
  rintro ⟨s, -, rfl⟩
  rw [Sample.ofMark?_mark] at h
  cases h

/-- A text that may stand in a row as the name of a signal. -/
structure IsLabel (name : String) : Prop where
  ne_nil : name.toList ≠ []
  blank : ' ' ∉ name.toList
  bar : '|' ∉ name.toList
  newline : '\n' ∉ name.toList

theorem pieces_rowLine {cell cell' : String} (h : '|' ∉ cell.toList) (h' : '|' ∉ cell'.toList)
    (w w' : Nat) :
    pieces '|' (rowLine w w' cell cell') = [[], field w cell, field w' cell', []] := by
  rw [rowLine, ← List.nil_append ('|' :: _), pieces_append_cons List.not_mem_nil,
    pieces_append_cons (notMem_field (by decide) h w),
    pieces_append_cons (notMem_field (by decide) h' w')]
  rfl

/-- A row is read as the signal and the trace that it was written for. -/
theorem rowOf?_rowLine (hname : IsLabel name) (hsize : samples.size = cycles) (w w' : Nat) :
    rowOf? cycles (rowLine w w' name samples.text) = some (name, samples) := by
  rw [rowOf?, pieces_rowLine hname.bar (notMem_text rfl samples)]
  have hlength : (samples.toList.map Sample.mark).length = cycles := by simp [hsize]
  have hcell : ∀ padding : List Char, cycles ≤ (samples.toList.map Sample.mark ++ padding).length ∧
      (samples.toList.map Sample.mark ++ padding).take cycles = samples.toList.map Sample.mark := by
    intro padding
    rw [List.length_append, hlength]
    exact ⟨Nat.le_add_right _ _, List.take_left' hlength⟩
  simp only [field.eq_def w', toList_text]
  rw [if_pos (hcell _).1, (hcell _).2, mapM_ofMark?, unpadded_field hname.ne_nil hname.blank,
    String.ofList_toList]
  rfl

/-! ## Reports -/

variable {b : Board}

/-- The line above the table. -/
def firstLine (cycles : Nat) : List Char :=
  "Simulated".toList ++ ' ' :: (Nat.toDigits 10 cycles ++ ' ' ::
    (if cycles = 1 then "cycle:" else "cycles:").toList)

theorem notMem_toDigits {c : Char} (hc : c.isDigit = false) (n : Nat) :
    c ∉ Nat.toDigits 10 n := by
  intro h
  rw [Nat.isDigit_of_mem_toDigits (by decide) (by decide) h] at hc
  cases hc

theorem cyclesOf?_firstLine (cycles : Nat) : cyclesOf? (firstLine cycles) = some cycles := by
  have hdigits : (Nat.toDigits 10 cycles).all Char.isDigit = true :=
    List.all_eq_true.2 fun c hc => Nat.isDigit_of_mem_toDigits (by decide) (by decide) hc
  have hunit : ' ' ∉ (if cycles = 1 then "cycle:" else "cycles:").toList := by
    split <;> decide
  unfold firstLine
  rw [cyclesOf?, pieces_append_cons (by decide),
    pieces_append_cons (notMem_toDigits (by decide) cycles), pieces_of_notMem hunit]
  simp [hdigits, Nat.toDigits_ne_nil, Nat.ofDigitChars_ten_toDigits]

theorem notMem_firstLine (cycles : Nat) : '\n' ∉ firstLine cycles := by
  have hdigits : '\n' ∉ Nat.toDigits 10 cycles := notMem_toDigits (by decide) cycles
  have hunit : '\n' ∉ (if cycles = 1 then "cycle:" else "cycles:").toList := by
    split <;> decide
  unfold firstLine
  simp only [List.mem_append, List.mem_cons, hdigits, hunit]
  decide

/-- The table of a board has two columns. -/
theorem exists_columnWidths (b : Board) : ∃ w w', b.traceTable.columnWidths = [w, w'] := by
  have hrows (rows : List (String × Trace)) (w w' : Nat) : ∃ v v',
      (rows.map fun row => [row.1, row.2.text]).foldl
        (fun widths row => List.zipWith max widths (row.map cellWidth)) [w, w'] = [v, v'] := by
    induction rows generalizing w w' with
    | nil => exact ⟨w, w', rfl⟩
    | cons row rows ih => exact ih _ _
  rw [columnWidths, Board.traceTable]
  exact hrows b.traces (cellWidth "Signal") (cellWidth "Trace")

/-- The line of a signal and its trace. -/
def signalLine (w w' : Nat) (row : String × Trace) : List Char := rowLine w w' row.1 row.2.text

/-- The lines of the table, given the widths of its columns. -/
def tableLines (rows : List (String × Trace)) (w w' : Nat) : List (List Char) :=
  ruleLine [w, w'] :: rowLine w w' "Signal" "Trace" :: ruleLine [w, w'] ::
    (rows.map (signalLine w w') ++ [ruleLine [w, w']])

/-- A report is drawn line by line. -/
theorem toList_report (h : ∀ row ∈ b.traces, IsLabel row.1) {w w' : Nat}
    (hwidths : b.traceTable.columnWidths = [w, w']) (cycles : Nat) :
    (b.report cycles).toList =
      (firstLine cycles :: tableLines b.traces w w').flatMap fun l => l ++ ['\n'] := by
  have hrows : (String.join (b.traceTable.rows.map (row [w, w']))).toList =
      (b.traces.map (signalLine w w')).flatMap fun l => l ++ ['\n'] := by
    rw [String.toList_join, Board.traceTable, List.map_map, List.flatMap_map, List.flatMap_map]
    refine List.flatMap_congr fun row hrow => ?_
    rw [Function.comp_apply, toList_row (h row hrow).newline (notMem_text rfl row.2), signalLine]
  have htitle : (row [w, w'] b.traceTable.title).toList =
      rowLine w w' "Signal" "Trace" ++ ['\n'] := by
    rw [Board.traceTable, toList_row (by decide) (by decide)]
  have htext : ∀ s : String, toString s = s := fun _ => rfl
  have hfirst (unit : String) (hunit : unit = if cycles = 1 then "cycle" else "cycles") :
      s!"Simulated {cycles} {unit}:\n".toList = firstLine cycles ++ ['\n'] := by
    rw [hunit]
    unfold firstLine
    split <;> simp [htext]
  unfold Board.report
  simp only [String.toList_append, hfirst _ rfl, render, hwidths, toList_rule, htitle, hrows,
    tableLines, List.flatMap_cons, List.flatMap_append, List.flatMap_nil, List.append_nil,
    List.append_assoc]

theorem notMem_tableLines {rows : List (String × Trace)} (h : ∀ row ∈ rows, IsLabel row.1)
    (w w' : Nat) : ∀ l ∈ tableLines rows w w', '\n' ∉ l := by
  intro l hl
  simp only [tableLines, List.mem_cons, List.mem_append, List.not_mem_nil, or_false] at hl
  rcases hl with rfl | rfl | rfl | hl | rfl
  · exact notMem_ruleLine _
  · exact notMem_rowLine (by decide) (by decide) w w'
  · exact notMem_ruleLine _
  · obtain ⟨row, hrow, rfl⟩ := List.mem_map.1 hl
    exact notMem_rowLine (h row hrow).newline (notMem_text rfl row.2) w w'
  · exact notMem_ruleLine _

/-- The rows are found behind the title by the bars at which they begin. -/
theorem rowsOf_tableLines (rows : List (String × Trace)) (w w' : Nat) :
    rowsOf (tableLines rows w w' ++ [[]]) = rows.map (signalLine w w') := by
  have hrule : ((ruleLine [w, w']).head? = some '|') = False := by simp [ruleLine]
  have htitle : (rowLine w w' "Signal" "Trace").head? = some '|' := rfl
  have hrows : (rows.map (signalLine w w')).filter (fun line => line.head? = some '|') =
      rows.map (signalLine w w') := by
    refine List.filter_eq_self.2 fun l hl => ?_
    obtain ⟨row, -, rfl⟩ := List.mem_map.1 hl
    rfl
  simp [rowsOf, tableLines, hrule, htitle, hrows]

/-- Every row is read as what it was written for. -/
theorem mapM_rowOf? {rows : List (String × Trace)} (h : ∀ row ∈ rows, IsLabel row.1)
    (hsize : ∀ row ∈ rows, row.2.size = cycles) (w w' : Nat) :
    (rows.map (signalLine w w')).mapM (rowOf? cycles) = some rows := by
  induction rows with
  | nil => rfl
  | cons row rows ih =>
    obtain ⟨hrow, hrows⟩ := List.forall_mem_cons.1 h
    obtain ⟨hlength, hlengths⟩ := List.forall_mem_cons.1 hsize
    simp [signalLine, rowOf?_rowLine hrow hlength, ih hrows hlengths]

/-- The report of a board is read as the cycles and the traces that it was written for. -/
theorem decode?_report (h : ∀ row ∈ b.traces, IsLabel row.1)
    (hsize : ∀ row ∈ b.traces, row.2.size = cycles) :
    decode? (b.report cycles) = some (cycles, b.traces) := by
  obtain ⟨w, w', hwidths⟩ := exists_columnWidths b
  have hlines : ∀ l ∈ firstLine cycles :: tableLines b.traces w w', '\n' ∉ l :=
    List.forall_mem_cons.2 ⟨notMem_firstLine cycles, notMem_tableLines h w w'⟩
  rw [decode?, toList_report h hwidths, pieces_flatMap hlines, List.cons_append]
  simp only [cyclesOf?_firstLine, Option.bind_some, rowsOf_tableLines, mapM_rowOf? h hsize,
    Option.map_some]

end Report

end Breadboard
