/-! What can go wrong in a database, with the message and the result code of each. -/

namespace MapLoader

inductive DatabaseError
  /-- The file holds something else. -/
  | notADatabase
  | cannotOpen (path : String)
  | noSuchTable (name : String)
  /-- An insert names a column that its table lacks. -/
  | missingColumn (table column : String)
  /-- An index names a column that its table lacks, at a byte offset of the statement. -/
  | unknownColumn (column statement : String) (offset : Nat)
  | notNull (table column : String)
  | check (expression : String)
  /-- The name of a new index is that of a table or view. -/
  | takenByTable (name : String)
  /-- The name of a new table is that of an index. -/
  | takenByIndex (name : String)
  | viewIndexed
  | viewModified (name : String)
  deriving DecidableEq, Inhabited, Repr

namespace DatabaseError

def message : DatabaseError → String
  | notADatabase => "file is not a database"
  | cannotOpen path => s!"unable to open database file: {path}"
  | noSuchTable name => s!"no such table: {name}"
  | missingColumn table column => s!"table {table} has no column named {column}"
  | unknownColumn column statement offset =>
    s!"no such column: {column} in {statement} at offset {offset}"
  | notNull table column => s!"NOT NULL constraint failed: {table}.{column}"
  | check expression => s!"CHECK constraint failed: {expression}"
  | takenByTable name => s!"there is already a table named {name}"
  | takenByIndex name => s!"there is already an index named {name}"
  | viewIndexed => "views may not be indexed"
  | viewModified name => s!"cannot modify {name} because it is a view"

def code : DatabaseError → Nat
  | notADatabase => 26
  | cannotOpen _ => 14
  | notNull _ _ => 1299
  | check _ => 275
  | noSuchTable _ | missingColumn _ _ | unknownColumn _ _ _ | takenByTable _ | takenByIndex _
  | viewIndexed | viewModified _ => 1

def codeMeaning : DatabaseError → String
  | notADatabase => "File opened that is not a database file"
  | cannotOpen _ => "Unable to open the database file"
  | notNull _ _ => "A NOT NULL constraint failed"
  | check _ => "A CHECK constraint failed"
  | noSuchTable _ | missingColumn _ _ | unknownColumn _ _ _ | takenByTable _ | takenByIndex _
  | viewIndexed | viewModified _ => "SQL error or missing database"

def codeText (e : DatabaseError) : String := s!"Error code {e.code}: {e.codeMeaning}"

/-- The message, then the code behind it. -/
def chain (e : DatabaseError) : List String := [e.message, e.codeText]

end DatabaseError

end MapLoader
