import MapLoader.Database.Basic
import MapLoader.Number.Shortest

/-! A database as the script of statements that builds it: each table with its rows, then the
views and the indexes. -/

namespace MapLoader

/-- A text between single quotes, a quote inside it written twice. -/
def sqlText (s : String) : String :=
  .ofList ('\x27' :: s.toList.flatMap fun c => if c = '\x27' then [c, c] else [c]) ++ "'"

def Cell.literal : Cell → String
  | null => "NULL"
  | integer n => toString n
  | real x => x.text
  | text s => sqlText s

def StoredTable.insertion (t : StoredTable) (cells : List Cell) : String :=
  "INSERT INTO " ++ t.name ++ " VALUES (" ++ String.intercalate ", " (cells.map Cell.literal) ++ ")"

def StoredTable.statements (t : StoredTable) : List String :=
  t.statement :: t.rows.toList.map t.insertion

def JournalMode.statement (m : JournalMode) : String := "PRAGMA journal_mode = " ++ m.name

namespace Database

def statements (d : Database) : List String :=
  d.journal.statement :: d.tables.flatMap StoredTable.statements
    ++ d.views.map StoredView.statement ++ d.indexes.map StoredIndex.statement

def script (d : Database) : String :=
  .join (d.statements.map fun s => s ++ ";\n")

end Database

example : (Cell.text "O'Hara").literal = "'O''Hara'" := by decide +kernel

example : (Cell.real ⟨0x3fe0000000000000⟩).literal = "0.5" := by decide +kernel

end MapLoader
