/-! The six tables that a load fills. Member lists have tables of their own beside those of
their parents. -/

namespace MapLoader

inductive Table
  | users | nodes | ways | wayNodes | relations | relationMembers
  deriving DecidableEq, Inhabited, Repr

namespace Table

/-- The order in which remaining rows are written at the end of a load. -/
def all : List Table := [.users, .nodes, .ways, .wayNodes, .relations, .relationMembers]

def name : Table → String
  | users => "users"
  | nodes => "nodes"
  | ways => "ways"
  | wayNodes => "way_nodes"
  | relations => "relations"
  | relationMembers => "relation_members"

def label : Table → String
  | users => "users"
  | nodes => "nodes"
  | ways => "ways"
  | wayNodes => "way nodes"
  | relations => "relations"
  | relationMembers => "relation members"

def itemName : Table → String
  | users => "User"
  | nodes => "Node"
  | ways => "Way"
  | wayNodes => "WayNode"
  | relations => "Relation"
  | relationMembers => "RelationMember"

def order : Table → Nat
  | users => 0
  | nodes => 1
  | ways => 2
  | wayNodes => 3
  | relations => 4
  | relationMembers => 5

def columns : Table → List String
  | users => ["id", "name"]
  | nodes => ["id", "version", "user_id", "tstamp", "changeset_id", "point", "tags"]
  | ways => ["id", "version", "user_id", "tstamp", "changeset_id", "tags"]
  | wayNodes => ["way_id", "node_id", "sequence_id"]
  | relations => ["id", "version", "user_id", "tstamp", "changeset_id", "tags"]
  | relationMembers => ["relation_id", "member_id", "member_type", "member_role", "sequence_id"]

def arity (t : Table) : Nat := t.columns.length

/-- Rows of these tables belong to a parent row, and are counted by parents. -/
def isMemberList : Table → Bool
  | wayNodes | relationMembers => true
  | users | nodes | ways | relations => false

@[simp] theorem mem_all (t : Table) : t ∈ all := by cases t <;> simp [all]

end Table

structure PerTable (α : Type) where
  users : α
  nodes : α
  ways : α
  wayNodes : α
  relations : α
  relationMembers : α
  deriving DecidableEq, Inhabited, Repr

namespace PerTable

variable {α : Type}

def const (a : α) : PerTable α := ⟨a, a, a, a, a, a⟩

def get (m : PerTable α) : Table → α
  | .users => m.users
  | .nodes => m.nodes
  | .ways => m.ways
  | .wayNodes => m.wayNodes
  | .relations => m.relations
  | .relationMembers => m.relationMembers

def set (m : PerTable α) (t : Table) (a : α) : PerTable α :=
  match t with
  | .users => { m with users := a }
  | .nodes => { m with nodes := a }
  | .ways => { m with ways := a }
  | .wayNodes => { m with wayNodes := a }
  | .relations => { m with relations := a }
  | .relationMembers => { m with relationMembers := a }

def modify (m : PerTable α) (t : Table) (f : α → α) : PerTable α := m.set t (f (m.get t))

def toList (m : PerTable α) : List α := Table.all.map m.get

@[simp] theorem get_const (a : α) (t : Table) : (const a).get t = a := by cases t <;> rfl

@[simp] theorem get_set (m : PerTable α) (s t : Table) (a : α) :
    (m.set s a).get t = if t = s then a else m.get t := by cases s <;> cases t <;> rfl

@[simp] theorem get_modify (m : PerTable α) (s t : Table) (f : α → α) :
    (m.modify s f).get t = if t = s then f (m.get t) else m.get t := by
  by_cases h : t = s <;> simp [modify, h]

end PerTable

def PerTable.total (m : PerTable Nat) : Nat := m.toList.foldr (· + ·) 0

end MapLoader
