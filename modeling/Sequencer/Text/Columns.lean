import Sequencer.Text.Width

/-! Text in the columns of a table. -/
namespace Sequencer.Text

def blanks (n : Nat) : String := String.ofList (List.replicate n ' ')

/-- The text filled up with blanks to `width` columns. Longer text stays as it is. -/
def padTo (width : Nat) (text : String) : String :=
  text ++ blanks (width - displayWidth text)

structure Cell where
  text : String
  toRight : Bool := false

namespace Cell

def lines (cell : Cell) : List String := cell.text.splitOn "\n"

def width (cell : Cell) : Nat :=
  (cell.lines.map displayWidth).foldl max 0

def line (cell : Cell) (width index : Nat) : String :=
  let text := cell.lines.getD index ""
  let gap := blanks (width - displayWidth text)
  if cell.toRight then s!" {gap}{text} " else s!" {text}{gap} "

end Cell

def columnWidths (rows : List (List Cell)) : List Nat :=
  let count := (rows.map List.length).foldl max 0
  (List.range count).map fun column =>
    (rows.map fun row => (row[column]?).elim 0 Cell.width).foldl max 0

def tableLines (rows : List (List Cell)) : List String :=
  let widths := columnWidths rows
  rows.flatMap fun row =>
    let height := (row.map fun cell => cell.lines.length).foldl max 1
    (List.range height).map fun index =>
      String.join ((row.zip widths).map fun (cell, width) => cell.line width index)

end Sequencer.Text
