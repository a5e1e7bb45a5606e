import Breadboard.Text.Lines
import Breadboard.Text.Escape

/-!
# Tables

A table with a title row, drawn with rules above and below the title and at the end. Cells
are aligned to the left with one space on each side, and a column is as wide as its widest
line. A cell may have several lines.
-/
namespace Breadboard.Text

structure Table where
  title : List String
  rows : List (List String)

namespace Table

/-- The columns that a cell takes: those of its widest line. -/
def cellWidth (cell : String) : Nat :=
  ((printedLines cell).map fun line => visibleWidth line.toList).foldl max 0

/-- The widths of the columns, each at least that of its title. -/
def columnWidths (t : Table) : List Nat :=
  t.rows.foldl (fun widths row => List.zipWith max widths (row.map cellWidth))
    (t.title.map cellWidth)

def spaces (n : Nat) : String := String.ofList (List.replicate n ' ')

/-- The rule between parts of the table. -/
def rule (widths : List Nat) : String :=
  "+" ++ String.join (widths.map fun w => String.ofList (List.replicate (w + 2) '-') ++ "+") ++ "\n"

/-- One line of a row, from the line of each cell. -/
def line (widths : List Nat) (cells : List String) : String :=
  let field (w : Nat) (cell : String) : String :=
    " " ++ cell ++ spaces (w - visibleWidth cell.toList) ++ " |"
  "|" ++ String.join (List.zipWith field widths cells) ++ "\n"

/-- A row, as many lines as its tallest cell has and at least one. -/
def row (widths : List Nat) (cells : List String) : String :=
  let lines := cells.map printedLines
  let height := (lines.map List.length).foldl max 1
  String.join <| (List.range height).map fun i => line widths (lines.map fun ls => ls[i]?.getD "")

def render (t : Table) : String :=
  let widths := t.columnWidths
  rule widths ++ row widths t.title ++ rule widths ++ String.join (t.rows.map (row widths)) ++
    rule widths

end Table

end Breadboard.Text
