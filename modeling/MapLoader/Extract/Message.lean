import MapLoader.Extract.Record
import MapLoader.Text.Utf8
import MapLoader.Wire.Field

/-! Reading the records of an extract from their messages. One broken field spoils the block that
it is in. -/

namespace MapLoader.Extract

open Wire

def int64 : Reading Int64 := scalar fun n => some (signed64 n)

def int32 : Reading Int32 := scalar signed32?

def sint64? (n : Nat) : Option Int64 := some (.ofInt (unzigzag n))

def sint64 : Reading Int64 := scalar sint64?

def uint32 : Reading UInt32 := scalar unsigned32?

def sint32? (n : Nat) : Option Int32 := (unsigned32? n).map fun n => .ofInt (unzigzag n.toNat)

def int32s : Reading Int32 := repeated signed32?

def uint32s : Reading UInt32 := repeated unsigned32?

def sint32s : Reading Int32 := repeated sint32?

def sint64s : Reading Int64 := repeated sint64?

def flags : Reading Nat := repeated some

def bytes : Reading (List UInt8) := delimited some

def string : Reading String := delimited fun bs => (Text.decodeUtf8 bs).toOption

def VersionInfo.read (fs : List Field) : Option VersionInfo := do
  cutOnlyIn [] fs
  let version ← last 1 int32 fs
  let timestamp ← last 2 int64 fs
  let changeset ← last 3 int64 fs
  let userId ← last 4 int32 fs
  let userIndex ← last 5 uint32 fs
  return { version, timestamp, changeset, userId, userIndex }

def readInfo (fs : List Field) : Option VersionInfo := do
  return (← last 4 (message VersionInfo.read) fs).getD .absent

def NodeRecord.read (fs : List Field) : Option NodeRecord := do
  cutOnlyIn [2, 3, 4] fs
  let id ← required 1 sint64 fs
  let tagKeys ← values 2 uint32s fs
  let tagValues ← values 3 uint32s fs
  let info ← readInfo fs
  let latitude ← required 8 sint64 fs
  let longitude ← required 9 sint64 fs
  return { id, tagKeys, tagValues, info, latitude, longitude }

def DenseInfo.read (fs : List Field) : Option DenseInfo := do
  cutOnlyIn [1, 2, 3, 4, 5, 6] fs
  let versions ← values 1 int32s fs
  let timestamps ← values 2 sint64s fs
  let changesets ← values 3 sint64s fs
  let userIds ← values 4 sint32s fs
  let userIndices ← values 5 sint32s fs
  let _ ← values 6 flags fs
  return { versions, timestamps, changesets, userIds, userIndices }

def DenseNodes.read (fs : List Field) : Option DenseNodes := do
  cutOnlyIn [1, 5, 8, 9, 10] fs
  let ids ← values 1 sint64s fs
  let info ← last 5 (message DenseInfo.read) fs
  let latitudes ← values 8 sint64s fs
  let longitudes ← values 9 sint64s fs
  let tags ← values 10 int32s fs
  return { ids, latitudes, longitudes, info, tags }

def WayRecord.read (fs : List Field) : Option WayRecord := do
  cutOnlyIn [2, 3, 4, 8] fs
  let id ← required 1 int64 fs
  let tagKeys ← values 2 uint32s fs
  let tagValues ← values 3 uint32s fs
  let info ← readInfo fs
  let refs ← values 8 sint64s fs
  return { id, tagKeys, tagValues, info, refs }

def RelationRecord.read (fs : List Field) : Option RelationRecord := do
  cutOnlyIn [2, 3, 4, 8, 9, 10] fs
  let id ← required 1 int64 fs
  let tagKeys ← values 2 uint32s fs
  let tagValues ← values 3 uint32s fs
  let info ← readInfo fs
  let roles ← values 8 int32s fs
  let memberIds ← values 9 sint64s fs
  let memberTypes ← values 10 int32s fs
  return { id, tagKeys, tagValues, info, roles, memberIds, memberTypes }

def readChangeset (fs : List Field) : Option Int64 := do
  cutOnlyIn [] fs
  required 1 int64 fs

def readStrings (fs : List Field) : Option (List (List UInt8)) := do
  cutOnlyIn [] fs
  values 1 bytes fs

/-- Changesets are read and left out. -/
def Group.read (fs : List Field) : Option Group := do
  cutOnlyIn [1, 2, 3, 4, 5] fs
  let nodes ← values 1 (message NodeRecord.read) fs
  let dense ← last 2 (message DenseNodes.read) fs
  let ways ← values 3 (message WayRecord.read) fs
  let relations ← values 4 (message RelationRecord.read) fs
  let _ ← values 5 (message readChangeset) fs
  return { nodes, dense, ways, relations }

def Block.read (fs : List Field) : Option Block := do
  cutOnlyIn [1, 2] fs
  let strings ← required 1 (message readStrings) fs
  let groups ← values 2 (message Group.read) fs
  let granularity ← last 17 int32 fs
  let dateGranularity ← last 18 int32 fs
  let latitudeOffset ← last 19 int64 fs
  let longitudeOffset ← last 20 int64 fs
  return {
    strings := strings.toArray, groups
    granularity := granularity.getD 100
    dateGranularity := dateGranularity.getD 1000
    latitudeOffset := latitudeOffset.getD 0
    longitudeOffset := longitudeOffset.getD 0 }

/-- The corners of the area that an extract covers. Only the last such area has to be whole. -/
def readCorners (fs : List Field) : Option Bool := do
  cutOnlyIn [] fs
  let corners ← [1, 2, 3, 4].mapM fun n => last n sint64 fs
  return corners.all Option.isSome

def readHeader (fs : List Field) : Option Unit := do
  cutOnlyIn [1] fs
  let area ← last 1 (message readCorners) fs
  for n in [4, 5, 16, 17, 34] do
    let _ ← values n string fs
  for n in [32, 33] do
    let _ ← values n int64 fs
  if area.getD true then return () else none

def Block.ofBytes? (bs : List UInt8) : Option Block := (fields? bs).bind Block.read

def isHeader (bs : List UInt8) : Bool := ((fields? bs).bind readHeader).isSome

end MapLoader.Extract
