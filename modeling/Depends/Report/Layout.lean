import Depends.Number
import Depends.Text.Fields
import Depends.Text.Width

/-!
Tables without borders: a header, a rule line, rows whose cells may have several lines, and an optional
footer between rule lines. Every column is as wide as its widest line.
-/
namespace Depends.Report

/-- A side on which a cell is filled up. -/
inductive Align where
  | left
  | right
  | center
  deriving DecidableEq, Repr

/-- A cell. The last `cut` characters of its text stand for the bytes of a character that has been cut
off. -/
structure Cell where
  text : String
  cut : Nat := 0
  deriving DecidableEq, Repr

instance : Coe String Cell := ⟨fun text => { text }⟩

namespace Cell

/-- The columns of a cell. -/
def width (cell : Cell) : Nat := Text.width cell.text cell.cut

/-- The lines of a cell; what is cut off ends the last. -/
def lines (cell : Cell) : List Cell :=
  let texts := Text.split '\n' cell.text
  texts.mapIdx fun i text => { text, cut := if i + 1 = texts.length then cell.cut else 0 }

end Cell

/-- A table. Columns without alignment are aligned to the left. -/
structure Table where
  header : List Cell
  rows : List (List Cell)
  footer : List Cell := []
  aligns : List Align := []

/-- So many blanks. -/
def blanks (n : Nat) : String := String.ofList (List.replicate n ' ')

/-- A cell filled up with blanks to a width. -/
def pad (align : Align) (width : Nat) (cell : Cell) : String :=
  let gap := width - cell.width
  match align with
  | .left => cell.text ++ blanks gap
  | .right => blanks gap ++ cell.text
  | .center => blanks (gap / 2) ++ cell.text ++ blanks (gap - gap / 2)

namespace Table

/-- The width of the widest line of a column. -/
def columnWidth (t : Table) (column : Nat) : Nat :=
  let cells := (t.header :: t.footer :: t.rows).map fun row => row.getD column ""
  ((cells.flatMap Cell.lines).map Cell.width).foldl max 0

/-- The widths of all columns. -/
def widths (t : Table) : List Nat := (List.range t.header.length).map t.columnWidth

/-- The line of dashes under the header and around the footer. -/
def ruleLine (t : Table) : String :=
  let dashes := Number.total (t.widths.map (· + 2)) + 2
  String.ofList (List.replicate dashes '-') ++ "\n"

/-- A line of cells with a gap after each. -/
def spacedLine (t : Table) (align : Align) (gap : Nat → Cell → String) (cells : List Cell) : String :=
  let parts := (List.range t.header.length).map fun i =>
    let cell := cells.getD i ""
    " " ++ pad align (t.widths.getD i 0) cell ++ " " ++ gap i cell
  " " ++ Text.join "" parts ++ "\n"

/-- Two blanks between columns and one after the last. -/
def headerGap (t : Table) (i : Nat) : String := if i + 1 = t.header.length then " " else "  "

/-- The header and its rule line. -/
def headerText (t : Table) : String :=
  t.spacedLine .left (fun i _ => t.headerGap i) t.header ++ t.ruleLine

/-- One line of a row. -/
def rowLine (t : Table) (cells : List Cell) : String :=
  let parts := (List.range t.header.length).map fun i =>
    (if i = 0 then " " else "  ") ++ " " ++ pad (t.aligns.getD i .left) (t.widths.getD i 0) (cells.getD i "") ++ " "
  Text.join "" parts ++ " \n"

/-- A row, with as many lines as its tallest cell. -/
def rowText (t : Table) (row : List Cell) : String :=
  let cells := row.map Cell.lines
  let height := (cells.map List.length).foldl max 0
  Text.join "" ((List.range height).map fun n => t.rowLine (cells.map fun lines => lines.getD n ""))

/-- The footer between rule lines, its cells centered. -/
def footerText (t : Table) : String :=
  if t.footer.isEmpty then ""
  else
    let gap (i : Nat) (cell : Cell) := if cell.text = "" then " " else t.headerGap i
    t.ruleLine ++ t.spacedLine .center gap t.footer ++ t.ruleLine

/-- The text of a table. -/
def text (t : Table) : String :=
  t.headerText ++ Text.join "" (t.rows.map t.rowText) ++ t.footerText

end Table

end Depends.Report
