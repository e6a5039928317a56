/-! What can be set for a load, as it was given and not yet checked. -/

namespace MapLoader

structure LoadArguments where
  extract : Option String := none
  database : Option String := none
  kinds : Option (List String) := none
  rowThreshold : Option Nat := none
  commitThreshold : Option Nat := none
  memberCommitThreshold : Option Nat := none
  channelCapacity : Option Nat := none
  skipIndexes : Bool := false
  deriving DecidableEq, Inhabited, Repr

inductive LoadField
  | extract | database | kinds
  | rowThreshold | commitThreshold | memberCommitThreshold | channelCapacity
  deriving DecidableEq, Repr

namespace LoadField

def all : List LoadField :=
  [.extract, .database, .kinds, .rowThreshold, .commitThreshold, .memberCommitThreshold,
    .channelCapacity]

def flag : LoadField → String
  | extract => "osm-pbf"
  | database => "database"
  | kinds => "include"
  | rowThreshold => "row-threshold"
  | commitThreshold => "commit-threshold"
  | memberCommitThreshold => "member-commit-threshold"
  | channelCapacity => "channel-capacity"

/-- The name in files and variables. -/
def key : LoadField → String
  | extract => "osm_pbf"
  | database => "database"
  | kinds => "include"
  | rowThreshold => "row_threshold"
  | commitThreshold => "commit_threshold"
  | memberCommitThreshold => "member_commit_threshold"
  | channelCapacity => "channel_capacity"

@[simp] theorem mem_all (f : LoadField) : f ∈ all := by cases f <;> simp [all]

end LoadField

end MapLoader
