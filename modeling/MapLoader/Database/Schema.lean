import MapLoader.Database.Basic

/-! The tables and lookup indexes of a map database. They are made step by step inside one
transaction: either all steps succeed or the database stays as it was. -/

namespace MapLoader

namespace Table

def integerColumn (name : String) : Column := { name, affinity := .integer, required := true }

def textColumn (name : String) : Column := { name, affinity := .text, required := true }

def versionSchema : List Column :=
  [integerColumn "id", integerColumn "version", integerColumn "user_id",
    { name := "tstamp", affinity := .integer }, integerColumn "changeset_id"]

def schema : Table → List Column
  | users => [integerColumn "id", textColumn "name"]
  | nodes => versionSchema ++ [textColumn "point", textColumn "tags"]
  | ways | relations => versionSchema ++ [textColumn "tags"]
  | wayNodes => [integerColumn "way_id", integerColumn "node_id", integerColumn "sequence_id"]
  | relationMembers =>
    [integerColumn "relation_id", integerColumn "member_id",
      { textColumn "member_type" with allowed := some ["Node", "Way", "Relation"] },
      textColumn "member_role", integerColumn "sequence_id"]

theorem schema_names (t : Table) : t.schema.map Column.name = t.columns := by cases t <;> rfl

def stored (t : Table) : StoredTable where
  name := t.name
  columns := t.schema
  statement :=
    "CREATE TABLE " ++ t.name ++ " ( " ++
      String.intercalate ", " (t.schema.map Column.definition) ++ " )"

end Table

/-- White space that starts the second line of a statement. -/
def continuation : String := "\n                "

/-- The indexes that look rows up by id, and members by parent or by node. -/
def lookupIndexes : List (String × IndexPlan) :=
  [("index users", ⟨"idx_users_id", "users", ["id"], " "⟩),
   ("index nodes", ⟨"idx_nodes_id", "nodes", ["id"], " "⟩),
   ("index ways", ⟨"idx_ways_id", "ways", ["id"], " "⟩),
   ("index way_nodes",
     ⟨"idx_way_nodes_way", "way_nodes", ["way_id", "sequence_id"], continuation⟩),
   ("index way_nodes by node", ⟨"idx_way_nodes_node", "way_nodes", ["node_id"], " "⟩),
   ("index relations", ⟨"idx_relations_id", "relations", ["id"], " "⟩),
   ("index relation_members",
     ⟨"idx_relation_members_relation", "relation_members", ["relation_id", "sequence_id"],
       continuation⟩)]

inductive SchemaStep
  | table (table : Table)
  | index (name : String) (plan : IndexPlan)
  deriving DecidableEq, Repr

namespace SchemaStep

def name : SchemaStep → String
  | table t => "create " ++ t.name
  | index name _ => name

def apply : SchemaStep → Database → Except DatabaseError Database
  | table t, d => d.createTable t.stored
  | index _ plan, d => d.createIndex plan

def object : SchemaStep → String
  | table t => t.name
  | index _ plan => plan.name

end SchemaStep

structure SchemaError where
  step : String
  source : DatabaseError
  deriving DecidableEq, Inhabited, Repr

namespace Database

def applySteps : List SchemaStep → Database → Except SchemaError Database
  | [], d => .ok d
  | s :: rest, d =>
    match s.apply d with
    | .error e => .error ⟨s.name, e⟩
    | .ok d => applySteps rest d

def tableSteps : List SchemaStep := Table.all.map .table

def indexSteps : List SchemaStep := lookupIndexes.map fun (name, plan) => .index name plan

/-- Runs steps in a transaction: the database after it, changed only when all succeeded. -/
def migrate (steps : List SchemaStep) (d : Database) : Except SchemaError Unit × Database :=
  match d.applySteps steps with
  | .ok d => (.ok (), d)
  | .error e => (.error e, d)

def bootstrap (d : Database) : Except SchemaError Unit × Database := d.migrate tableSteps

def createIndexes (d : Database) : Except SchemaError Unit × Database := d.migrate indexSteps

def fresh : Database := { tables := Table.all.map Table.stored, journal := .wal }

end Database

end MapLoader
