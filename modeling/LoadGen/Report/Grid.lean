import LoadGen.Report.Style

/-!
# Tables without borders

A table is a list of rows of styled cells.  A column is as wide as its widest text, in characters,
and every cell is filled up to that width.

* `Grid` — the layout of a table; `Grid.lines` writes it.
* `Grid.columnWidth` — the width of a column.
-/

namespace LoadGen
namespace Report

/-- Where a text stands in its column. -/
inductive Align
  | left
  | centre
  | right
  deriving DecidableEq, Repr

structure Cell where
  text : String
  style : Style := .unstyled

structure Grid where
  /-- Blanks in front of every line. -/
  margin : Nat
  /-- Blanks on either side of every cell. -/
  padding : Nat
  /-- Where the texts of a column stand. -/
  align : Nat → Align

namespace Grid

def blanks (n : Nat) : String :=
  String.ofList (List.replicate n ' ')

/-- The blanks before a text when `slack` are to be shared out. -/
def leftFill (align : Align) (slack : Nat) : Nat :=
  match align with
  | .left => 0
  | .centre => slack / 2
  | .right => slack

/-- A cell in a column of the given width.  Padding, fill and text are styled piece by piece, and an
empty fill is left out. -/
def cell (g : Grid) (column width : Nat) (c : Cell) : String :=
  let slack := width - c.text.length
  let left := leftFill (g.align column) slack
  let fill n := if n = 0 then "" else c.style.paint (blanks n)
  let pad := c.style.paint (blanks g.padding)
  pad ++ fill left ++ c.style.paint c.text ++ fill (slack - left) ++ pad

def columnWidth (rows : List (List Cell)) (column : Nat) : Nat :=
  (rows.filterMap (·[column]?)).foldl (fun w c => max w c.text.length) 0

def lines (g : Grid) (rows : List (List Cell)) : List String :=
  rows.map fun row =>
    blanks g.margin ++
      String.join (row.mapIdx fun column c => g.cell column (columnWidth rows column) c)

end Grid
end Report
end LoadGen
