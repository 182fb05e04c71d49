/-!
# Tables

A heading and rows of cells, each column as wide as its widest cell. A double line parts the heading
from the rows, and a thin line parts the rows.
-/

namespace Containment.Client

structure Table where
  heading : List String
  rows : List (List String)

namespace Table

def widths (t : Table) : List Nat :=
  t.rows.foldl (fun widths row => List.zipWith (fun w cell => max w cell.length) widths row)
    (t.heading.map String.length)

def line (left inner right : String) (cells : List String) : String :=
  left ++ inner.intercalate cells ++ right

def rule (left inner right : String) (dash : Char) (widths : List Nat) : String :=
  line left inner right (widths.map fun w => String.ofList (List.replicate (w + 2) dash))

def pad (width : Nat) (cell : String) : String :=
  " " ++ cell ++ String.ofList (List.replicate (width - cell.length) ' ') ++ " "

def row (widths : List Nat) (cells : List String) : String :=
  line "|" "|" "|" (List.zipWith pad widths cells)

def lines (t : Table) : List String :=
  let widths := t.widths
  let border := rule "+" "+" "+" '-' widths
  let thin := rule "|" "+" "|" '-' widths
  [border, row widths t.heading, rule "+" "=" "+" '=' widths] ++
    (t.rows.map (row widths)).intersperse thin ++ [border]

def text (t : Table) : String := "\n".intercalate t.lines

end Table

end Containment.Client
