import OpenGauss.Mcp.Output
import Mathlib.Data.List.DropRight

/-! The tables of the output (`gaussdb-mcp`, `output.rs`). -/

set_option autoImplicit false

namespace OpenGauss.Mcp.Output

open Driver OpenGauss.Types Json

/-- The inner loop over the cells of a row: those behind the last column are passed over. -/
def widen : List Nat → List Text → List Nat
  | width :: widths, cell :: cells => max width cell.length :: widen widths cells
  | widths, _ => widths

/-- `col_widths` -/
def colWidths (columns : List Text) (cells : List (List Text)) : List Nat :=
  cells.foldl widen (columns.map List.length)

/-- `{:width$}` -/
def padded (width : Nat) (cell : Text) : Text := cell ++ List.replicate (width - cell.length) ' '

/-- `make_cells`; `none` is an index of `col_widths` that is out of range. -/
def makeCells : List Nat → List Text → Option (List Text)
  | _, [] => some []
  | [], _ :: _ => none
  | width :: widths, cell :: cells => (makeCells widths cells).map (padded width cell :: ·)

/-- The lines at the top, under the header and at the bottom of a box. -/
def border (left middle right : Char) (widths : List Nat) : Text :=
  left :: [middle].intercalate (widths.map fun width => List.replicate (width + 2) '─') ++ [right]

/-- `format_row` -/
def formatRow (cells : List Text) : Text :=
  "│ ".toList ++ " │ ".toList.intercalate cells ++ " │".toList

section

variable (packages : Packages)

/-- `value_to_string` prints a value as `value_to_compact_string` of `cli.rs` does. -/
def valueToString : Value → Text := valueToCompactString packages

def valueCells (rows : List (List Value)) : List (List Text) :=
  rows.map fun row => row.map (valueToString packages)

def formatTable (columns : List Text) (rows : List (List Value)) : Option Text :=
  if columns.isEmpty then some []
  else do
    let cells := valueCells packages rows
    let widths := colWidths columns cells
    let sep := "-+-".toList.intercalate (widths.map fun width => List.replicate width '-')
    let header ← makeCells widths columns
    let lines ← cells.mapM (makeCells widths)
    return " | ".toList.intercalate header ++ '\n' :: sep ++ '\n' ::
      lines.flatMap fun line => " | ".toList.intercalate line ++ ['\n']

def formatTableBoxed (columns : List Text) (rows : List (List Value)) : Option Text :=
  if columns.isEmpty then some []
  else do
    let cells := valueCells packages rows
    let widths := colWidths columns cells
    let header ← makeCells widths columns
    let lines ← cells.mapM (makeCells widths)
    return border '┌' '┬' '┐' widths ++ '\n' :: (formatRow header ++ '\n' ::
      (border '├' '┼' '┤' widths ++ '\n' :: ((lines.flatMap fun line => formatRow line ++ ['\n']) ++
        (border '└' '┴' '┘' widths ++ ['\n']))))

end

/-- Columns and rows as a statement returns them: every row has a value for each column. -/
structure Grid where
  columns : List Text
  rows : List (List Value)
  some : columns ≠ []
  rectangular : ∀ row ∈ rows, row.length = columns.length

/-- A cell without the blanks at its end. -/
def bare (cell : Text) : Text := cell.rdropWhile (· == ' ')

namespace Grid

variable (packages : Packages) (grid : Grid)

def widths : List Nat := colWidths grid.columns (valueCells packages grid.rows)

/-- The names of the columns and the values, without blanks at their ends. -/
def shown : List Text × List (List Text) :=
  (grid.columns.map bare, (valueCells packages grid.rows).map fun row => row.map bare)

end Grid

end OpenGauss.Mcp.Output
