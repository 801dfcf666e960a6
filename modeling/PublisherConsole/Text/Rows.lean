/-!
# Rows of a text

A line feed ends a row and starts the next one, so every text has at least one row.
-/

namespace PublisherConsole.Text

/-- The rows of a text, divided at line feeds. -/
def splitRows : List Char → List (List Char)
  | [] => [[]]
  | c :: cs =>
    if c = '\n' then [] :: splitRows cs
    else
      match splitRows cs with
      | [] => [[c]]
      | row :: rows => (c :: row) :: rows

/-- A row without the carriage return at its end. -/
def dropReturn (row : List Char) : List Char :=
  if row.getLast? = some '\r' then row.dropLast else row

/-- The pieces of a text between line ends: a line feed ends a piece, and a carriage return in
front of it belongs to the end. Nothing follows a final line end. -/
def splitLines (text : String) : List String :=
  let rows := splitRows text.toList
  let last := rows.getLastD []
  (rows.dropLast.map dropReturn ++ if last.isEmpty then [] else [last]).map String.ofList

end PublisherConsole.Text
