import MapLoader.Element
import MapLoader.Table
import MapLoader.Number.Shortest
import MapLoader.Text.Json

/-! Rows as they are bound to an insert: what each element and each entry of a member list puts
into the columns of its table. -/

namespace MapLoader

inductive Value
  | null
  | integer (n : Int)
  | text (s : String)
  | point (p : Point)
  deriving DecidableEq, Inhabited, Repr

abbrev Row := List Value

def Value.ofOption : Option Int → Value
  | none => null
  | some n => integer n

/-- Tags as one JSON object, its keys ascending. -/
def Tags.text (tags : Tags) : String := .ofList (Json.encodeObject tags.toList)

def Point.ewkt (p : Point) : String := "SRID=4326;POINT(" ++ p.x.text ++ " " ++ p.y.text ++ ")"

/-- Stands in the users table for a name that is not known. -/
def noNameFound : String := "NO_NAME_FOUND"

def User.row (u : User) : Row :=
  [.integer u.id, .text (if u.name.isEmpty then noNameFound else u.name)]

def versionColumns (id : Int) (m : Metadata) : Row :=
  [.integer id, .integer m.version, .integer m.user.id, .ofOption m.timestampMillis,
    .integer m.changeset]

def Node.row (n : Node) : Row :=
  versionColumns n.id n.metadata ++ [.point n.location, .text n.tags.text]

def Way.row (w : Way) : Row := versionColumns w.id w.metadata ++ [.text w.tags.text]

def Relation.row (r : Relation) : Row := versionColumns r.id r.metadata ++ [.text r.tags.text]

structure WayNode where
  wayId : Int
  nodeId : Int
  sequence : Nat
  deriving DecidableEq, Repr

structure RelationMember where
  relationId : Int
  member : Member
  sequence : Nat
  deriving DecidableEq, Repr

def wayNodes (wayId : Int) (nodeRefs : List Int) : List WayNode :=
  nodeRefs.zipIdx.map fun (n, i) => ⟨wayId, n, i⟩

def relationMembers (relationId : Int) (members : List Member) : List RelationMember :=
  members.zipIdx.map fun (m, i) => ⟨relationId, m, i⟩

def WayNode.row (w : WayNode) : Row := [.integer w.wayId, .integer w.nodeId, .integer w.sequence]

def RelationMember.row (r : RelationMember) : Row :=
  [.integer r.relationId, .integer r.member.id, .text r.member.kind.name, .text r.member.role,
    .integer r.sequence]

end MapLoader
