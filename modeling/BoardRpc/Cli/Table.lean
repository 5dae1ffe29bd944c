/-! Tables with ruled lines, on a screen of any width. -/

namespace BoardRpc.Cli

/-- Rows of cells under a header. A cell holds one line of text. -/
structure Table where
  header : List String
  rows : List (List String)
  deriving Repr, Inhabited

/-- The strokes of a horizontal rule: at its left end, along a column, between two columns, and at
its right end. -/
structure Rule where
  left : Char
  along : Char
  between : Char
  right : Char

namespace Rule

/-- The rule above the header. -/
def top : Rule := ⟨'┌', '─', '┬', '┐'⟩

/-- The rule under the header. -/
def underHeader : Rule := ⟨'╞', '═', '╪', '╡'⟩

/-- The rule between two rows. -/
def betweenRows : Rule := ⟨'├', '╌', '┼', '┤'⟩

/-- The rule under the last row. -/
def bottom : Rule := ⟨'└', '─', '┴', '┘'⟩

/-- A rule over columns of given widths. -/
def render (rule : Rule) (widths : List Nat) : String :=
  let columns := widths.map fun width => String.ofList (List.replicate width rule.along)
  String.singleton rule.left ++ (String.singleton rule.between).intercalate columns
    ++ String.singleton rule.right

end Rule

namespace Table

/-- The widths of the columns. Each fits its widest cell, with a space on both sides. -/
def widths (table : Table) : List Nat :=
  table.header.mapIdx fun column title =>
    table.rows.foldl (fun widest row => max widest (row[column]?.getD "").length) title.length + 2

/-- A cell at the left of its column. -/
def renderCell (width : Nat) (text : String) : String :=
  " " ++ text ++ String.ofList (List.replicate (width - 1 - text.length) ' ')

/-- The cells of one line. -/
def renderRow (widths : List Nat) (cells : List String) : String :=
  "│" ++ "┆".intercalate (List.zipWith renderCell widths cells) ++ "│"

/-- The lines of the table. Where there are no rows, the header is ruled off all the same. -/
def lines (table : Table) : List String :=
  let widths := table.widths
  let rows := table.rows.map (renderRow widths)
  [Rule.top.render widths, renderRow widths table.header, Rule.underHeader.render widths]
    ++ rows.intersperse (Rule.betweenRows.render widths)
    ++ [Rule.bottom.render widths]

end Table

/-- Lines of text, each of them ended. -/
def unlines (lines : List String) : String := String.join (lines.map (· ++ "\n"))

/-- The table as text. -/
def Table.render (table : Table) : String := unlines table.lines

end BoardRpc.Cli
