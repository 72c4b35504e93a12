import PullSql.Result

/-!
# Result tables

A result drawn as a table: a line of names, a line for every row and the number of rows. A column is
as wide as its longest text is in bytes, and a text is filled up with blanks to that many characters,
names on both sides and values in front.
-/

namespace PullSql.Result

/-! ## Texts in columns -/

/-- A run of blanks. -/
def blanks (n : Nat) : String := String.ofList (List.replicate n ' ')

/-- A text in the middle of a width, an odd blank behind it. -/
def centred (width : Nat) (s : String) : String :=
  let spare := width - s.length
  blanks (spare / 2) ++ s ++ blanks (spare - spare / 2)

/-- A text at the end of a width. -/
def alignedRight (width : Nat) (s : String) : String := blanks (width - s.length) ++ s

/-! ## Lines -/

/-- The texts of a row under the given names. -/
def cells (columns : Schema) (row : Row) : List String :=
  columns.names.map fun name => ((row.get? name).map Value.display).getD ""

/-- The widths of the columns, from the lines of texts. -/
def widths (header : List String) (body : List (List String)) : List Nat :=
  body.foldl (fun widths line => List.zipWith (fun w s => max w s.utf8ByteSize) widths line)
    (header.map String.utf8ByteSize)

/-- The line between the parts of a table. -/
def rule (widths : List Nat) : String :=
  let dashes := widths.map fun w => String.ofList (List.replicate (w + 2) '-')
  "+" ++ "+".intercalate dashes ++ "+\n"

/-- A line of texts, each placed in its column. -/
def line (place : Nat → String → String) (widths : List Nat) (texts : List String) : String :=
  let placed := List.zipWith (fun w s => " " ++ place w s ++ " ") widths texts
  "|" ++ "|".intercalate placed ++ "|\n"

/-! ## The table -/

/-- The line that counts the rows. -/
def countLine (r : Result) : String := toString r.rows.length ++ " row(s) returned\n"

/-- The table of a result, only the count if there are no columns. -/
def table (r : Result) : String :=
  if r.columns.isEmpty then r.countLine
  else
    let header := r.columns.names
    let body := r.rows.map (cells r.columns)
    let widths := widths header body
    rule widths ++ line centred widths header ++ rule widths ++
      String.join (body.map (line alignedRight widths)) ++
      (if body.isEmpty then "" else rule widths) ++ r.countLine

end PullSql.Result
