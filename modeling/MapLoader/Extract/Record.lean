/-! An extract as it is sent: blocks of element records whose strings are indices into a table
of the block, and whose ids and positions may be sent as differences. Every number has the width
that its field has in the format. -/

namespace MapLoader.Extract

abbrev StringTable := Array (List UInt8)

/-- What a record says about its version; any of it may be left out. -/
structure VersionInfo where
  version : Option Int32 := none
  timestamp : Option Int64 := none
  changeset : Option Int64 := none
  userId : Option Int32 := none
  userIndex : Option UInt32 := none
  deriving DecidableEq, Inhabited, Repr

def VersionInfo.absent : VersionInfo := {}

structure NodeRecord where
  id : Int64
  tagKeys : List UInt32 := []
  tagValues : List UInt32 := []
  info : VersionInfo := .absent
  latitude : Int64
  longitude : Int64
  deriving DecidableEq, Repr

/-- The version data of many nodes, column by column. All but the versions are differences. -/
structure DenseInfo where
  versions : List Int32 := []
  timestamps : List Int64 := []
  changesets : List Int64 := []
  userIds : List Int32 := []
  userIndices : List Int32 := []
  deriving DecidableEq, Inhabited, Repr

/-- Many nodes, column by column. Ids and positions are differences. -/
structure DenseNodes where
  ids : List Int64 := []
  latitudes : List Int64 := []
  longitudes : List Int64 := []
  info : Option DenseInfo := none
  /-- The tags of all nodes: pairs of indices, with a zero after those of each node. -/
  tags : List Int32 := []
  deriving DecidableEq, Inhabited, Repr

structure WayRecord where
  id : Int64
  tagKeys : List UInt32 := []
  tagValues : List UInt32 := []
  info : VersionInfo := .absent
  /-- Ids of nodes, as differences. -/
  refs : List Int64 := []
  deriving DecidableEq, Repr

structure RelationRecord where
  id : Int64
  tagKeys : List UInt32 := []
  tagValues : List UInt32 := []
  info : VersionInfo := .absent
  roles : List Int32 := []
  /-- Ids of members, as differences. -/
  memberIds : List Int64 := []
  memberTypes : List Int32 := []
  deriving DecidableEq, Repr

structure Group where
  nodes : List NodeRecord := []
  dense : Option DenseNodes := none
  ways : List WayRecord := []
  relations : List RelationRecord := []
  deriving DecidableEq, Inhabited, Repr

structure Block where
  strings : StringTable
  groups : List Group := []
  /-- Nanodegrees in a unit of position. -/
  granularity : Int32 := 100
  /-- Milliseconds in a unit of time. -/
  dateGranularity : Int32 := 1000
  latitudeOffset : Int64 := 0
  longitudeOffset : Int64 := 0
  deriving DecidableEq, Repr

end MapLoader.Extract
