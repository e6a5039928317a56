import MapLoader.Session.Batch

/-! What waits to be written. Users and member lists are kept by id, so that of several under
one id only one is written; elements are kept in the order they came. -/

namespace MapLoader

structure Buffers where
  users : SortedMap Int String := .empty
  nodes : Array Node := #[]
  /-- Ways without their node lists. -/
  ways : Array Way := #[]
  wayNodes : SortedMap Int (List Int) := .empty
  /-- Relations without their member lists. -/
  relations : Array Relation := #[]
  relationMembers : SortedMap Int (List Member) := .empty
  deriving DecidableEq, Inhabited

namespace Buffers

def size (b : Buffers) : Table → Nat
  | .users => b.users.size
  | .nodes => b.nodes.size
  | .ways => b.ways.size
  | .wayNodes => b.wayNodes.size
  | .relations => b.relations.size
  | .relationMembers => b.relationMembers.size

def batch (b : Buffers) : Table → Batch
  | .users => .users (b.users.toList.map fun (id, name) => ⟨id, name⟩)
  | .nodes => .nodes b.nodes.toList
  | .ways => .ways b.ways.toList
  | .wayNodes => .wayNodes b.wayNodes.toList
  | .relations => .relations b.relations.toList
  | .relationMembers => .relationMembers b.relationMembers.toList

def clear (b : Buffers) : Table → Buffers
  | .users => { b with users := .empty }
  | .nodes => { b with nodes := #[] }
  | .ways => { b with ways := #[] }
  | .wayNodes => { b with wayNodes := .empty }
  | .relations => { b with relations := #[] }
  | .relationMembers => { b with relationMembers := .empty }

/-- A user who waits already keeps the name he came with first. -/
def addUser (b : Buffers) (u : User) : Buffers :=
  if b.users.contains u.id then b else { b with users := b.users.insert u.id u.name }

def addNode (b : Buffers) (n : Node) : Buffers := { b with nodes := b.nodes.push n }

/-- The node list goes to a buffer of its own, in place of one that waits under the same id. -/
def addWay (b : Buffers) (w : Way) : Buffers :=
  { b with
    ways := b.ways.push { w with nodeRefs := [] }
    wayNodes := b.wayNodes.insert w.id w.nodeRefs }

/-- The member list goes to a buffer of its own, in place of one that waits under the same id. -/
def addRelation (b : Buffers) (r : Relation) : Buffers :=
  { b with
    relations := b.relations.push { r with members := [] }
    relationMembers := b.relationMembers.insert r.id r.members }

@[simp] theorem table_batch (b : Buffers) (t : Table) : (b.batch t).table = t := by cases t <;> rfl

@[simp] theorem size_clear (b : Buffers) (s t : Table) :
    (b.clear s).size t = if t = s then 0 else b.size t := by cases s <;> cases t <;> rfl

end Buffers

end MapLoader
