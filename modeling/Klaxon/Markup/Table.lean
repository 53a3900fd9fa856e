import Klaxon.Markup.Line

/-!
# Tables of a marked-up document

A row is a line of cells between bars; the bars at its ends may be missing. A table starts with a
header and a line that gives an alignment for each cell of it.
-/

namespace Klaxon.Markup

/-- How the cells of a column stand. -/
inductive Alignment where
  | none
  | left
  | center
  | right
  deriving DecidableEq

/-- Splits a row at its bars; a bar behind a backslash is text. -/
def splitCells : List Char → List (List Char)
  | [] => [[]]
  | '\\' :: '|' :: cs =>
    match splitCells cs with
    | [] => [['|']]
    | first :: rest => ('|' :: first) :: rest
  | c :: cs =>
    if c == '|' then [] :: splitCells cs
    else
      match splitCells cs with
      | [] => [[c]]
      | first :: rest => (c :: first) :: rest

/-- The cells of a row. -/
def cellsOf (l : Line) : List (List Char) :=
  let text := l.trimmed
  let text := match text with
    | '|' :: rest => rest
    | text => text
  let cells := splitCells text
  -- A bar at the end closes the last cell and starts none.
  let cells := match cells.getLast? with
    | some last => if 1 < cells.length && Line.isEmpty last then cells.dropLast else cells
    | none => cells
  cells.map Line.trimmed

/-- The alignment that a cell below a header gives. -/
def alignment? (cell : List Char) : Option Alignment :=
  let first := cell.head? == some ':'
  let last := cell.getLast? == some ':'
  let marks := if first then cell.drop 1 else cell
  let marks := if last then marks.dropLast else marks
  if marks.isEmpty || !marks.all (· == '-') then none
  else
    match first, last with
    | true, true => some .center
    | true, false => some .left
    | false, true => some .right
    | false, false => some .none

/-- The alignments that the line below the header of a table gives. -/
def alignments? (header l : Line) : Option (List Alignment) :=
  if header.contains '|' && header.isFlush && l.isFlush && l.contains '|' then
    match (cellsOf l).mapM alignment? with
    | some as => if as.length = (cellsOf header).length then some as else none
    | none => none
  else none

/-- A row with as many cells as there are columns. -/
def fitRow (columns : Nat) (cells : List (List Char)) : List (List Char) :=
  cells.take columns ++ List.replicate (columns - cells.length) []

/-- The rows of a table, and the rest. -/
def takeRows (columns : Nat) : List Line → List (List (List Char)) × List Line
  | [] => ([], [])
  | l :: rest =>
    if l.interrupts then ([], l :: rest)
    else
      let (rows, rest) := takeRows columns rest
      (fitRow columns (cellsOf l) :: rows, rest)

end Klaxon.Markup
