import MapLoader.SortedMap
import MapLoader.Number.Binary64

/-! The elements of a map: nodes with a position, ways that list nodes, relations that list
members of any kind, and the version data that each of them carries. -/

namespace MapLoader

inductive ElementKind
  | node | way | relation
  deriving DecidableEq, Inhabited, Repr

namespace ElementKind

def all : List ElementKind := [.node, .way, .relation]

def name : ElementKind → String
  | node => "Node"
  | way => "Way"
  | relation => "Relation"

def order : ElementKind → Nat
  | node => 0
  | way => 1
  | relation => 2

/-- The kind with this name, in the spelling that `name` writes. -/
def ofName? (s : String) : Option ElementKind := all.find? fun k => k.name = s

@[simp] theorem mem_all (k : ElementKind) : k ∈ all := by cases k <;> simp [all]

@[simp] theorem ofName?_name (k : ElementKind) : ofName? k.name = some k := by cases k <;> rfl

end ElementKind

structure PerElement (α : Type) where
  node : α
  way : α
  relation : α
  deriving DecidableEq, Inhabited, Repr

namespace PerElement

variable {α : Type}

def const (a : α) : PerElement α := ⟨a, a, a⟩

def get (m : PerElement α) : ElementKind → α
  | .node => m.node
  | .way => m.way
  | .relation => m.relation

def set (m : PerElement α) (k : ElementKind) (a : α) : PerElement α :=
  match k with
  | .node => { m with node := a }
  | .way => { m with way := a }
  | .relation => { m with relation := a }

@[simp] theorem get_const (a : α) (k : ElementKind) : (const a).get k = a := by cases k <;> rfl

@[simp] theorem get_set (m : PerElement α) (k j : ElementKind) (a : α) :
    (m.set k a).get j = if j = k then a else m.get j := by cases k <;> cases j <;> rfl

end PerElement

structure User where
  id : Int
  name : String
  deriving DecidableEq, Inhabited, Repr

/-- Stands for the author of a version that names none. -/
def User.unknown : User := ⟨-1, ""⟩

structure Metadata where
  version : Int := 0
  user : User := .unknown
  timestampMillis : Option Int := none
  changeset : Int := 0
  deriving DecidableEq, Inhabited, Repr

/-- A position: `x` is the longitude, `y` the latitude. -/
structure Point where
  x : Binary64
  y : Binary64
  deriving DecidableEq, Inhabited, Repr

abbrev Tags := SortedMap String String

structure Node where
  id : Int
  metadata : Metadata
  location : Point
  tags : Tags
  deriving DecidableEq, Inhabited

structure Way where
  id : Int
  metadata : Metadata
  tags : Tags
  nodeRefs : List Int
  deriving DecidableEq, Inhabited

structure Member where
  id : Int
  kind : ElementKind
  role : String
  deriving DecidableEq, Inhabited, Repr

structure Relation where
  id : Int
  metadata : Metadata
  tags : Tags
  members : List Member
  deriving DecidableEq, Inhabited

inductive Entity
  | node (n : Node)
  | way (w : Way)
  | relation (r : Relation)
  deriving DecidableEq, Inhabited

namespace Entity

def kind : Entity → ElementKind
  | node _ => .node
  | way _ => .way
  | relation _ => .relation

def user : Entity → User
  | node n => n.metadata.user
  | way w => w.metadata.user
  | relation r => r.metadata.user

end Entity

end MapLoader
