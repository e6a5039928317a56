import MapLoader.Row

/-! What the tables are to hold, column by column: an author, an element of each kind, and the
members of a list with their places. Whatever is bound to an insert is one of these rows. -/

namespace MapLoader

/-- An author by id; an empty name has a stand-in. -/
def authorRow (u : User) : Row :=
  [.integer u.id, .text (if u.name = "" then "NO_NAME_FOUND" else u.name)]

/-- An element without its members: version, author, time and changeset, then what is its own. -/
def Entity.row : Entity → Row
  | .node n => [.integer n.id, .integer n.metadata.version, .integer n.metadata.user.id,
      n.metadata.timestampMillis.elim .null .integer, .integer n.metadata.changeset,
      .point n.location, .text n.tags.text]
  | .way w => [.integer w.id, .integer w.metadata.version, .integer w.metadata.user.id,
      w.metadata.timestampMillis.elim .null .integer, .integer w.metadata.changeset,
      .text w.tags.text]
  | .relation r => [.integer r.id, .integer r.metadata.version, .integer r.metadata.user.id,
      r.metadata.timestampMillis.elim .null .integer, .integer r.metadata.changeset,
      .text r.tags.text]

def elementRows (k : ElementKind) (es : List Entity) : List Row :=
  (es.filter fun e => e.kind = k).map Entity.row

def wayLists (es : List Entity) : List (Int × List Int) :=
  es.filterMap fun
    | .way w => some (w.id, w.nodeRefs)
    | _ => none

def memberLists (es : List Entity) : List (Int × List Member) :=
  es.filterMap fun
    | .relation r => some (r.id, r.members)
    | _ => none

/-- The way, a node and its place, counted from zero, for each node of a list. -/
def wayListRows (l : Int × List Int) : List Row :=
  l.2.zipIdx.map fun (n, i) => [.integer l.1, .integer n, .integer i]

/-- The relation, a member and its place, counted from zero, for each member of a list. -/
def memberListRows (l : Int × List Member) : List Row :=
  l.2.zipIdx.map fun (m, i) =>
    [.integer l.1, .integer m.id, .text m.kind.name, .text m.role, .integer i]

theorem User.row_eq (u : User) : u.row = authorRow u := by
  simp [row, authorRow, noNameFound, String.isEmpty_iff]

theorem versionColumns_eq (id : Int) (m : Metadata) : versionColumns id m =
    [.integer id, .integer m.version, .integer m.user.id, m.timestampMillis.elim .null .integer,
      .integer m.changeset] := by
  rw [versionColumns]
  cases m.timestampMillis <;> rfl

theorem Node.row_eq (n : Node) : n.row = (Entity.node n).row := by
  rw [row, versionColumns_eq]
  rfl

theorem Way.row_eq (w : Way) : w.row = (Entity.way w).row := by
  rw [row, versionColumns_eq]
  rfl

theorem Relation.row_eq (r : Relation) : r.row = (Entity.relation r).row := by
  rw [row, versionColumns_eq]
  rfl

theorem map_row_wayNodes (l : Int × List Int) :
    (wayNodes l.1 l.2).map WayNode.row = wayListRows l := by
  rw [wayNodes, List.map_map]
  rfl

theorem map_row_relationMembers (l : Int × List Member) :
    (relationMembers l.1 l.2).map RelationMember.row = memberListRows l := by
  rw [relationMembers, List.map_map]
  rfl

@[simp] theorem length_wayListRows (l : Int × List Int) :
    (wayListRows l).length = l.2.length := by simp [wayListRows]

@[simp] theorem length_memberListRows (l : Int × List Member) :
    (memberListRows l).length = l.2.length := by simp [memberListRows]

theorem elementRows_append (k : ElementKind) (es : List Entity) (e : Entity) :
    elementRows k (es ++ [e]) = elementRows k es ++ if e.kind = k then [e.row] else [] := by
  by_cases h : e.kind = k <;> simp [elementRows, List.filter_append, h]

end MapLoader
