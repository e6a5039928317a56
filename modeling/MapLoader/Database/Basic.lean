import MapLoader.Database.Cell
import MapLoader.Database.Error

/-! A relational database as a value: tables with their rows, views, indexes. Names are compared
without regard to the case of ASCII letters. Creating what exists already changes nothing. -/

namespace MapLoader

structure Column where
  name : String
  affinity : Affinity := .any
  required : Bool := false
  /-- The only texts that the column admits. -/
  allowed : Option (List String) := none
  deriving DecidableEq, Inhabited, Repr

namespace Column

def condition (name : String) (allowed : List String) : String :=
  name ++ " IN (" ++ String.intercalate ", " (allowed.map fun s => "'" ++ s ++ "'") ++ ")"

def definition (c : Column) : String :=
  let kind := match c.affinity with
    | .any => ""
    | .integer => " INTEGER"
    | .text => " TEXT"
  let rule := if c.required then " NOT NULL" else ""
  let check := match c.allowed with
    | none => ""
    | some allowed => " CHECK (" ++ condition c.name allowed ++ ")"
  c.name ++ kind ++ rule ++ check

end Column

structure StoredTable where
  name : String
  columns : List Column
  /-- The statement that made it, runs of white space shortened to one space. -/
  statement : String
  rows : Array (List Cell) := #[]
  deriving DecidableEq, Inhabited, Repr

structure StoredView where
  name : String
  statement : String
  deriving DecidableEq, Inhabited, Repr

structure StoredIndex where
  name : String
  table : String
  statement : String
  deriving DecidableEq, Inhabited, Repr

inductive JournalMode
  | delete | wal
  deriving DecidableEq, Inhabited, Repr

def JournalMode.name : JournalMode → String
  | delete => "delete"
  | wal => "wal"

structure Database where
  tables : List StoredTable := []
  views : List StoredView := []
  indexes : List StoredIndex := []
  journal : JournalMode := .delete
  deriving DecidableEq, Inhabited, Repr

structure IndexPlan where
  name : String
  table : String
  columns : List String
  /-- White space between the name and the table. -/
  gap : String := " "
  deriving DecidableEq, Inhabited, Repr

namespace IndexPlan

def opening (p : IndexPlan) : String :=
  "CREATE INDEX IF NOT EXISTS " ++ p.name ++ p.gap ++ "ON " ++ p.table ++ "("

def statement (p : IndexPlan) : String :=
  p.opening ++ String.intercalate ", " p.columns ++ ")"

def storedStatement (p : IndexPlan) : String :=
  "CREATE INDEX " ++ p.name ++ " ON " ++ p.table ++ "(" ++ String.intercalate ", " p.columns ++ ")"

/-- Where the statement names its column number `i`, in bytes. -/
def offset (p : IndexPlan) (i : Nat) : Nat :=
  (p.columns.take i).foldl (fun n c => n + c.utf8ByteSize + 2) p.opening.utf8ByteSize

end IndexPlan

def sameName (a b : String) : Bool := a.toLower == b.toLower

namespace Database

def table? (d : Database) (name : String) : Option StoredTable :=
  d.tables.find? fun t => sameName t.name name

def view? (d : Database) (name : String) : Option StoredView :=
  d.views.find? fun v => sameName v.name name

def index? (d : Database) (name : String) : Option StoredIndex :=
  d.indexes.find? fun i => sameName i.name name

/-- A table of this name, or a view that stands in its place. -/
def hasRelation (d : Database) (name : String) : Bool :=
  (d.table? name).isSome || (d.view? name).isSome

def createTable (t : StoredTable) (d : Database) : Except DatabaseError Database :=
  if d.hasRelation t.name then .ok d
  else if (d.index? t.name).isSome then .error (.takenByIndex t.name)
  else .ok { d with tables := d.tables ++ [t] }

/-- The first of some columns that a table lacks, with its position. -/
def missing? (t : StoredTable) (columns : List String) : Option (String × Nat) :=
  columns.zipIdx.find? fun c => !t.columns.any fun d => sameName d.name c.1

def createIndex (p : IndexPlan) (d : Database) : Except DatabaseError Database :=
  match d.table? p.table with
  | none =>
    .error (if (d.view? p.table).isSome then .viewIndexed else .noSuchTable ("main." ++ p.table))
  | some t =>
    if d.hasRelation p.name then .error (.takenByTable p.name)
    else if (d.index? p.name).isSome then .ok d
    else
      match missing? t p.columns with
      | some (c, i) => .error (.unknownColumn c p.statement (p.offset i))
      | none => .ok { d with indexes := d.indexes ++ [⟨p.name, t.name, p.storedStatement⟩] }

def dropTable (name : String) (d : Database) : Database :=
  { d with
    tables := d.tables.filter fun t => !sameName t.name name
    indexes := d.indexes.filter fun i => !sameName i.table name }

def target (t : Table) (d : Database) : Except DatabaseError StoredTable :=
  match d.table? t.name with
  | none =>
    .error (if (d.view? t.name).isSome then .viewModified t.name else .noSuchTable t.name)
  | some s =>
    match missing? s t.columns with
    | some (c, _) => .error (.missingColumn t.name c)
    | none => .ok s

end Database

namespace StoredTable

/-- The cell that an insert of the named columns gives to a column; unnamed ones stay empty. -/
def cellFor (names : List String) (row : Row) (c : Column) : Cell :=
  c.affinity.apply
    (((names.zip row).find? fun e => sameName e.1 c.name).elim .null fun e => e.2.cell)

/-- The first rule that a row breaks: required columns come before enumerated ones. -/
def violation? (t : StoredTable) (cells : List Cell) : Option DatabaseError :=
  let pairs := t.columns.zip cells
  let empty := pairs.find? fun e => e.1.required && e.2 == .null
  let unlisted := pairs.findSome? fun (c, v) =>
    match c.allowed, v with
    | none, _ | _, .null => none
    | some allowed, .text s => if s ∈ allowed then none else some (Column.condition c.name allowed)
    | some allowed, _ => some (Column.condition c.name allowed)
  match empty with
  | some (c, _) => some (.notNull t.name c.name)
  | none => unlisted.map .check

def insert (names : List String) (row : Row) (t : StoredTable) :
    Except DatabaseError Unit × StoredTable :=
  let cells := t.columns.map (cellFor names row)
  match t.violation? cells with
  | some e => (.error e, t)
  | none => (.ok (), { t with rows := t.rows.push cells })

/-- Inserts rows in order, up to the first that breaks a rule. -/
def insertRows (names : List String) :
    List Row → StoredTable → Except DatabaseError Unit × StoredTable
  | [], t => (.ok (), t)
  | r :: rest, t =>
    match t.insert names r with
    | (.error e, t) => (.error e, t)
    | (.ok _, t) => insertRows names rest t

end StoredTable

namespace Database

def replaceTable (t : StoredTable) (d : Database) : Database :=
  { d with tables := d.tables.map fun s => if s.name == t.name then t else s }

def insertRows (t : Table) (rows : List Row) (d : Database) :
    Except DatabaseError Unit × Database :=
  match d.target t with
  | .error e => (.error e, d)
  | .ok s =>
    let (outcome, s) := s.insertRows t.columns rows
    (outcome, d.replaceTable s)

def rows? (d : Database) (name : String) : Option (Array (List Cell)) :=
  (d.table? name).map StoredTable.rows

end Database

end MapLoader
