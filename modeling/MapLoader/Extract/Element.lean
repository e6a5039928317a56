import MapLoader.Element
import MapLoader.Extract.Malformed
import MapLoader.Extract.Record
import MapLoader.Number.Width

/-! From the records of a block to elements: differences are summed up, indices are looked up,
units are converted. Plain and dense nodes go their own ways to the same elements.

Sums and products have the width of their numbers and wrap around, as they do in a decoder that
is built without overflow checks. With such checks it would stop at a number that leaves its
width. -/

namespace MapLoader.Extract

inductive ElementError
  | malformed (reason : Malformed)
  /-- Nothing after such a record can be read. -/
  | unknownMemberType (code : Int32)
  deriving DecidableEq, Repr

/-- An index of a string as it is looked up: a negative one is past the end of every table. -/
def indexOf (i : Int32) : Nat := (i.toInt % (maxUInt64 + 1)).toNat

def lookup (strings : StringTable) (i : Nat) : Except Malformed String :=
  match strings[i]? with
  | none => .error (.indexOutOfBounds i)
  | some bytes => (Text.decodeUtf8 bytes).mapError (.notText i)

/-- Looks up tags, and stops at the first whose key or value cannot be. -/
def tagTexts (strings : StringTable) : List (Nat × Nat) → List (String × String)
  | [] => []
  | (k, v) :: rest =>
    match lookup strings k, lookup strings v with
    | .ok key, .ok value => (key, value) :: tagTexts strings rest
    | _, _ => []

/-- The tags at these places. Of two tags with one key the later counts. -/
def tagsOf (strings : StringTable) (pairs : List (Nat × Nat)) : Tags :=
  .ofList (tagTexts strings pairs)

def pairIndices (keys values : List UInt32) : List (Nat × Nat) :=
  (keys.zip values).map fun (k, v) => (k.toNat, v.toNat)

section

variable {α : Type} [Add α]

/-- The numbers whose differences are given, the first one counted from `start`. -/
def sumsFrom (start : α) : List α → List α
  | [] => []
  | d :: rest => (start + d) :: sumsFrom (start + d) rest

def sums [Zero α] (differences : List α) : List α := sumsFrom 0 differences

end

def nanodegree : Binary64 := .ofDecimal false 1 (-9)

namespace Block

def degrees (block : Block) (offset units : Int64) : Binary64 :=
  nanodegree.mul (.ofInt (offset + block.granularity.toInt64 * units).toInt)

def location (block : Block) (longitude latitude : Int64) : Point :=
  ⟨block.degrees block.longitudeOffset longitude, block.degrees block.latitudeOffset latitude⟩

def milliseconds (block : Block) (timestamp : Int64) : Int :=
  (timestamp * block.dateGranularity.toInt64).toInt

end Block

/-! ### Records -/

/-- A version without a user id has no known user; a user without a name has an empty one. -/
def VersionInfo.user (strings : StringTable) (info : VersionInfo) : Except Malformed User :=
  match info.userId with
  | none => .ok .unknown
  | some id =>
    match info.userIndex with
    | none => .ok ⟨id.toInt, ""⟩
    | some i => (lookup strings i.toNat).map fun name => ⟨id.toInt, name⟩

def VersionInfo.metadata (block : Block) (info : VersionInfo) : Except Malformed Metadata :=
  (info.user block.strings).map fun user =>
    { version := (info.version.getD 0).toInt
      user
      timestampMillis := info.timestamp.map block.milliseconds
      changeset := (info.changeset.getD 0).toInt }

def NodeRecord.toNode (block : Block) (r : NodeRecord) : Except Malformed Node :=
  (r.info.metadata block).map fun metadata =>
    { id := r.id.toInt
      metadata
      location := block.location r.longitude r.latitude
      tags := tagsOf block.strings (pairIndices r.tagKeys r.tagValues) }

def WayRecord.toWay (block : Block) (r : WayRecord) : Except Malformed Way :=
  (r.info.metadata block).map fun metadata =>
    { id := r.id.toInt
      metadata
      tags := tagsOf block.strings (pairIndices r.tagKeys r.tagValues)
      nodeRefs := (sums r.refs).map Int64.toInt }

def memberKind? (code : Int32) : Option ElementKind :=
  if code = 0 then some .node
  else if code = 1 then some .way
  else if code = 2 then some .relation
  else none

structure MemberRecord where
  role : Int32
  id : Int64
  type : Int32
  deriving DecidableEq, Repr

def RelationRecord.members (r : RelationRecord) : List MemberRecord :=
  (r.roles.zip ((sums r.memberIds).zip r.memberTypes)).map fun (role, id, type) =>
    ⟨role, id, type⟩

def MemberRecord.toMember (strings : StringTable) (m : MemberRecord) : Except ElementError Member :=
  match memberKind? m.type with
  | none => .error (.unknownMemberType m.type)
  | some kind =>
    match lookup strings (indexOf m.role) with
    | .error e => .error (.malformed e)
    | .ok role => .ok ⟨m.id.toInt, kind, role⟩

/-- Members in order, up to the first that cannot be read. -/
def readMembers (strings : StringTable) : List MemberRecord → Except ElementError (List Member)
  | [] => .ok []
  | m :: rest =>
    match m.toMember strings with
    | .error e => .error e
    | .ok member => (readMembers strings rest).map (member :: ·)

/-- Members are read before the version data. -/
def RelationRecord.toRelation (block : Block) (r : RelationRecord) :
    Except ElementError Relation :=
  match readMembers block.strings r.members with
  | .error e => .error e
  | .ok members =>
    match r.info.metadata block with
    | .error e => .error (.malformed e)
    | .ok metadata =>
      .ok ⟨r.id.toInt, metadata, tagsOf block.strings (pairIndices r.tagKeys r.tagValues), members⟩

/-! ### Dense nodes -/

/-- The version data of one dense node. It is there as a whole. -/
structure DenseVersion where
  version : Int32
  timestamp : Int64
  changeset : Int64
  userId : Int32
  userIndex : Int32
  deriving DecidableEq, Repr

structure DenseNode where
  id : Int64
  latitude : Int64
  longitude : Int64
  version : Option DenseVersion
  tags : List (Int32 × Int32)
  deriving DecidableEq, Repr

/-- Cuts off the tags of one node: its pairs, and what follows the zero after them. An entry
without a partner ends the list. -/
def cutTags : List Int32 → List (Int32 × Int32) × List Int32
  | [] => ([], [])
  | [_] => ([], [])
  | k :: v :: rest =>
    if k = 0 then ([], v :: rest)
    else
      let (pairs, rest) := cutTags rest
      ((k, v) :: pairs, rest)

def dealTags : Nat → List Int32 → List (List (Int32 × Int32))
  | 0, _ => []
  | n + 1, tags =>
    let (pairs, rest) := cutTags tags
    pairs :: dealTags n rest

/-- The version data of dense nodes, for as many nodes as every column reaches. -/
def DenseInfo.entries (d : DenseInfo) : List DenseVersion :=
  (d.versions.zip ((sums d.timestamps).zip ((sums d.changesets).zip
    ((sums d.userIds).zip (sums d.userIndices))))).map
    fun (version, timestamp, changeset, userId, userIndex) =>
      { version, timestamp, changeset, userId, userIndex }

/-- Dense nodes one by one. Those that the version data does not reach have none. -/
def DenseNodes.entries (d : DenseNodes) : List DenseNode :=
  let positions := (sums d.ids).zip ((sums d.latitudes).zip (sums d.longitudes))
  let versions := ((d.info.map DenseInfo.entries).getD []).map some
    ++ List.replicate positions.length none
  let tags := dealTags positions.length d.tags
  (positions.zip (versions.zip tags)).map fun ((id, latitude, longitude), version, tags) =>
    { id, latitude, longitude, version, tags }

def DenseVersion.metadata (block : Block) (v : DenseVersion) : Except Malformed Metadata :=
  (lookup block.strings (indexOf v.userIndex)).map fun name =>
    { version := v.version.toInt
      user := ⟨v.userId.toInt, name⟩
      timestampMillis := some (block.milliseconds v.timestamp)
      changeset := v.changeset.toInt }

namespace DenseNode

def metadata (block : Block) (n : DenseNode) : Except Malformed Metadata :=
  match n.version with
  | some v => v.metadata block
  | none => .ok {}

def tagPairs (n : DenseNode) : List (Nat × Nat) := n.tags.map fun (k, v) => (indexOf k, indexOf v)

def toNode (block : Block) (n : DenseNode) : Except Malformed Node :=
  (n.metadata block).map fun metadata =>
    { id := n.id.toInt
      metadata
      location := block.location n.longitude n.latitude
      tags := tagsOf block.strings n.tagPairs }

end DenseNode

/-! ### Blocks -/

inductive Record
  | node (r : NodeRecord)
  | dense (n : DenseNode)
  | way (r : WayRecord)
  | relation (r : RelationRecord)
  deriving DecidableEq, Repr

def Record.toEntity (block : Block) : Record → Except ElementError Entity
  | node r => ((r.toNode block).map .node).mapError .malformed
  | dense n => ((n.toNode block).map .node).mapError .malformed
  | way r => ((r.toWay block).map .way).mapError .malformed
  | relation r => (r.toRelation block).map .relation

/-- Plain nodes come first, then dense nodes, ways and relations. -/
def Group.records (g : Group) : List Record :=
  g.nodes.map .node ++ ((g.dense.map DenseNodes.entries).getD []).map .dense
    ++ g.ways.map .way ++ g.relations.map .relation

def Block.records (b : Block) : List Record := b.groups.flatMap Group.records

end MapLoader.Extract
