import MapLoader.Extract.Stream

/-! Nodes may be sent one by one or column by column, with differences instead of numbers and all
tags in one list. They are converted by different functions, and what is read is the same. -/

namespace MapLoader.Extract

/-- Where the strings of a tag are. A zero is not the place of a key: it ends the tags of a node.
Columns hold places as signed numbers. -/
structure TagIndices where
  key : Nat
  value : Nat
  key_ne : key ≠ 0
  key_le : key ≤ maxInt32
  value_le : value ≤ maxInt32

/-- A node in the units of its block, without its version data. -/
structure NodeContent where
  id : Int64
  latitude : Int64
  longitude : Int64
  tags : List TagIndices

structure VersionContent where
  version : Int32
  timestamp : Int64
  changeset : Int64
  userId : Int32
  userIndex : Nat
  userIndex_le : userIndex ≤ maxInt32

/-- Nodes to send together: all with complete version data, or all without any. -/
inductive NodeBatch
  | bare (nodes : List NodeContent)
  | versioned (nodes : List (NodeContent × VersionContent))

/-! ### Sending -/

section

variable {α : Type} [Sub α]

/-- What each number adds to the one before it, the first one counted from `start`. -/
def differencesFrom (start : α) : List α → List α
  | [] => []
  | n :: rest => (n - start) :: differencesFrom n rest

def differences [Zero α] (numbers : List α) : List α := differencesFrom 0 numbers

end

def TagIndices.pair (t : TagIndices) : Int32 × Int32 := (.ofNat t.key, .ofNat t.value)

def NodeContent.tagColumn (n : NodeContent) : List Int32 :=
  n.tags.flatMap (fun t => [.ofNat t.key, .ofNat t.value]) ++ [0]

def VersionContent.info (v : VersionContent) : VersionInfo where
  version := some v.version
  timestamp := some v.timestamp
  changeset := some v.changeset
  userId := some v.userId
  userIndex := some (.ofNat v.userIndex)

def NodeContent.record (n : NodeContent) (info : VersionInfo) : NodeRecord where
  id := n.id
  tagKeys := n.tags.map fun t => .ofNat t.key
  tagValues := n.tags.map fun t => .ofNat t.value
  info
  latitude := n.latitude
  longitude := n.longitude

def denseInfo (versions : List VersionContent) : DenseInfo where
  versions := versions.map (·.version)
  timestamps := differences (versions.map (·.timestamp))
  changesets := differences (versions.map (·.changeset))
  userIds := differences (versions.map (·.userId))
  userIndices := differences (versions.map fun v => .ofNat v.userIndex)

def denseNodes (nodes : List NodeContent) (info : Option DenseInfo) : DenseNodes where
  ids := differences (nodes.map (·.id))
  latitudes := differences (nodes.map (·.latitude))
  longitudes := differences (nodes.map (·.longitude))
  info
  tags := nodes.flatMap NodeContent.tagColumn

namespace NodeBatch

def plain : NodeBatch → Group
  | bare nodes => { nodes := nodes.map fun n => n.record .absent }
  | versioned nodes => { nodes := nodes.map fun (n, v) => n.record v.info }

def dense : NodeBatch → Group
  | bare nodes => { dense := some (denseNodes nodes none) }
  | versioned nodes =>
    { dense := some (denseNodes (nodes.map Prod.fst) (some (denseInfo (nodes.map Prod.snd)))) }

end NodeBatch

/-! ### Reading columns -/

theorem sumsFrom_differencesFrom {α : Type} [Add α] [Sub α]
    (hadd : ∀ a b : α, a + (b - a) = b) (start : α) (numbers : List α) :
    sumsFrom start (differencesFrom start numbers) = numbers := by
  induction numbers generalizing start with
  | nil => rfl
  | cons n rest ih => simp [differencesFrom, sumsFrom, hadd, ih]

/-- A difference that leaves the width wraps around, and so does the sum that takes it back. -/
@[simp] theorem sums_differences_int64 (numbers : List Int64) :
    sums (differences numbers) = numbers :=
  sumsFrom_differencesFrom (fun a b => by grind) 0 numbers

@[simp] theorem sums_differences_int32 (numbers : List Int32) :
    sums (differences numbers) = numbers :=
  sumsFrom_differencesFrom (fun a b => by grind) 0 numbers

theorem toInt_ofNat_int32 {i : Nat} (h : i ≤ maxInt32) : (Int32.ofNat i).toInt = i :=
  Int32.toInt_ofNat_of_lt (Nat.lt_succ_of_le h)

theorem int32_ofNat_ne_zero {i : Nat} (h : i ≤ maxInt32) (hi : i ≠ 0) : Int32.ofNat i ≠ 0 := by
  intro h0
  have hint := congrArg Int32.toInt h0
  rw [toInt_ofNat_int32 h] at hint
  exact hi (Int.natCast_eq_zero.1 hint)

/-- The tags of a node end at its own zero, whatever follows. -/
theorem cutTags_tagColumn (n : NodeContent) (rest : List Int32) :
    cutTags (n.tagColumn ++ rest) = (n.tags.map TagIndices.pair, rest) := by
  unfold NodeContent.tagColumn
  induction n.tags with
  | nil => cases rest <;> simp [cutTags]
  | cons t tags ih =>
    have hkey : Int32.ofNat t.key ≠ 0 := int32_ofNat_ne_zero t.key_le t.key_ne
    simp only [List.flatMap_cons, List.cons_append, List.nil_append, List.append_assoc, cutTags,
      hkey, if_false] at ih ⊢
    simp [ih, TagIndices.pair]

theorem dealTags_tagColumns (nodes : List NodeContent) :
    dealTags nodes.length (nodes.flatMap NodeContent.tagColumn) =
      nodes.map fun n => n.tags.map TagIndices.pair := by
  induction nodes with
  | nil => rfl
  | cons n nodes ih => simp [dealTags, cutTags_tagColumn, ih]

def VersionContent.dense (v : VersionContent) : DenseVersion where
  version := v.version
  timestamp := v.timestamp
  changeset := v.changeset
  userId := v.userId
  userIndex := .ofNat v.userIndex

def NodeContent.dense (n : NodeContent) (version : Option DenseVersion) : DenseNode where
  id := n.id
  latitude := n.latitude
  longitude := n.longitude
  version
  tags := n.tags.map TagIndices.pair

theorem entries_denseInfo (versions : List VersionContent) :
    (denseInfo versions).entries = versions.map VersionContent.dense := by
  simp only [DenseInfo.entries, denseInfo, sums_differences_int64, sums_differences_int32,
    List.zip_map', List.map_map]
  rfl

theorem zip_map_append {α β γ : Type} (f : α → β) (g : α → γ) (l : List α) (more : List β) :
    (l.map f ++ more).zip (l.map g) = l.map fun a => (f a, g a) := by
  induction l with
  | nil => simp
  | cons a l ih => simp [ih]

/-- The columns are read as nodes, if those of the version data go as far as the nodes do. What
is added for nodes without version data then stands after the last node. -/
theorem entries_denseNodes {α : Type} (entries : List α) (node : α → NodeContent)
    (version : α → Option DenseVersion) (info : Option DenseInfo)
    (more : List (Option DenseVersion))
    (hinfo : ((info.map DenseInfo.entries).getD []).map some ++
      List.replicate entries.length none = entries.map version ++ more) :
    (denseNodes (entries.map node) info).entries =
      entries.map fun e => (node e).dense (version e) := by
  have htags := dealTags_tagColumns (entries.map node)
  rw [List.length_map] at htags
  simp only [DenseNodes.entries, denseNodes, sums_differences_int64, List.zip_map', List.map_map,
    List.length_map, hinfo, htags, zip_map_append]
  rfl

/-! ### Dense and plain nodes -/

def DenseVersion.info (v : DenseVersion) : VersionInfo where
  version := some v.version
  timestamp := some v.timestamp
  changeset := some v.changeset
  userId := some v.userId
  userIndex := some v.userIndex.toUInt32

namespace DenseNode

/-- The record that says the same as a dense node. -/
def record (n : DenseNode) : NodeRecord where
  id := n.id
  tagKeys := n.tags.map fun p => p.1.toUInt32
  tagValues := n.tags.map fun p => p.2.toUInt32
  info := (n.version.map DenseVersion.info).getD .absent
  latitude := n.latitude
  longitude := n.longitude

/-- No index of a dense node is negative. A record cannot say a negative one. -/
structure Unsigned (n : DenseNode) : Prop where
  tags : ∀ p ∈ n.tags, 0 ≤ p.1.toInt ∧ 0 ≤ p.2.toInt
  version : ∀ v ∈ n.version, 0 ≤ v.userIndex.toInt

end DenseNode

theorem indexOf_of_nonneg {i : Int32} (h : 0 ≤ i.toInt) : indexOf i = i.toUInt32.toNat := by
  have hnat : i.toUInt32.toNat = i.toBitVec.toNat := rfl
  have hint : i.toInt = i.toBitVec.toInt := rfl
  have hlt : i.toBitVec.toNat < 2 ^ 32 := i.toBitVec.isLt
  rw [hint, BitVec.toInt_eq_toNat_cond] at h
  rw [indexOf, hint, hnat, BitVec.toInt_eq_toNat_cond]
  split at h
  · rename_i hc
    rw [if_pos hc, maxUInt64]
    omega
  · omega

namespace DenseNode

theorem metadata_record {n : DenseNode} (h : n.Unsigned) (block : Block) :
    n.record.info.metadata block = n.metadata block := by
  unfold record metadata
  cases hv : n.version with
  | none => rfl
  | some v =>
    have hi := indexOf_of_nonneg (h.version v hv)
    simp only [Option.map_some, Option.getD_some, VersionInfo.metadata, VersionInfo.user,
      DenseVersion.info, DenseVersion.metadata, hi]
    cases lookup block.strings v.userIndex.toUInt32.toNat <;> rfl

theorem tagPairs_record {n : DenseNode} (h : n.Unsigned) :
    pairIndices n.record.tagKeys n.record.tagValues = n.tagPairs := by
  rw [pairIndices, record, List.zip_map', List.map_map, tagPairs]
  refine List.map_congr_left fun p hp => ?_
  obtain ⟨hkey, hvalue⟩ := h.tags p hp
  exact Prod.ext (indexOf_of_nonneg hkey).symm (indexOf_of_nonneg hvalue).symm

/-- A dense node is converted to what its record is converted to, with version data or without,
and is malformed for the same reason. -/
theorem toNode_record {n : DenseNode} (h : n.Unsigned) (block : Block) :
    n.record.toNode block = n.toNode block := by
  rw [NodeRecord.toNode, toNode, metadata_record h, tagPairs_record h]
  rfl

end DenseNode

/-! ### Converting -/

def NodeContent.indices (n : NodeContent) : List (Nat × Nat) := n.tags.map fun t => (t.key, t.value)

/-- The node in degrees and with its tags looked up. -/
def NodeContent.node (block : Block) (n : NodeContent) (metadata : Metadata) : Node where
  id := n.id.toInt
  metadata
  location :=
    ⟨block.degrees block.longitudeOffset n.longitude, block.degrees block.latitudeOffset n.latitude⟩
  tags := .ofList (tagTexts block.strings n.indices)

/-- A node with a version is lost just if the name of its author is. -/
def VersionContent.result (block : Block) (v : VersionContent) (n : NodeContent) :
    Except ElementError Entity :=
  match lookup block.strings v.userIndex with
  | .error reason => .error (.malformed reason)
  | .ok name => .ok (.node (n.node block
      { version := v.version.toInt
        user := ⟨v.userId.toInt, name⟩
        timestampMillis := some (v.timestamp * block.dateGranularity.toInt64).toInt
        changeset := v.changeset.toInt }))

/-- What a batch of nodes gives, however it is sent. -/
def NodeBatch.results (block : Block) : NodeBatch → List (Except ElementError Entity)
  | bare nodes => nodes.map fun n => .ok (.node (n.node block ⟨0, .unknown, none, 0⟩))
  | versioned nodes => nodes.map fun (n, v) => v.result block n

def Block.holding (block : Block) (before : List Group) (g : Group) (after : List Group) : Block :=
  { block with groups := before ++ g :: after }

theorem toNat_ofNat_uint32 {i : Nat} (h : i ≤ maxInt32) : (UInt32.ofNat i).toNat = i :=
  UInt32.toNat_ofNat_of_lt' (Nat.lt_of_le_of_lt h (by decide))

theorem pairIndices_record (n : NodeContent) (info : VersionInfo) :
    pairIndices (n.record info).tagKeys (n.record info).tagValues = n.indices := by
  rw [pairIndices, NodeContent.record, List.zip_map', List.map_map]
  refine List.map_congr_left fun t _ => ?_
  exact Prod.ext (toNat_ofNat_uint32 t.key_le) (toNat_ofNat_uint32 t.value_le)

theorem toEntity_absent (block : Block) (n : NodeContent) :
    (Record.node (n.record .absent)).toEntity block =
      .ok (.node (n.node block ⟨0, .unknown, none, 0⟩)) := by
  rw [Record.toEntity, NodeRecord.toNode, pairIndices_record]
  rfl

theorem toEntity_info (block : Block) (n : NodeContent) (v : VersionContent) :
    (Record.node (n.record v.info)).toEntity block = v.result block n := by
  have hmetadata : (n.record v.info).info.metadata block =
      (lookup block.strings v.userIndex).map fun name =>
        { version := v.version.toInt
          user := ⟨v.userId.toInt, name⟩
          timestampMillis := some (v.timestamp * block.dateGranularity.toInt64).toInt
          changeset := v.changeset.toInt } := by
    simp only [NodeContent.record, VersionInfo.metadata, VersionInfo.user, VersionContent.info,
      toNat_ofNat_uint32 v.userIndex_le]
    cases lookup block.strings v.userIndex <;> rfl
  rw [Record.toEntity, NodeRecord.toNode, hmetadata, pairIndices_record, VersionContent.result]
  cases lookup block.strings v.userIndex <;> rfl

theorem NodeContent.unsigned_dense (n : NodeContent) (v : Option VersionContent) :
    (n.dense (v.map VersionContent.dense)).Unsigned where
  tags p hp := by
    obtain ⟨t, -, rfl⟩ := List.mem_map.1 hp
    simp [TagIndices.pair, toInt_ofNat_int32 t.key_le, toInt_ofNat_int32 t.value_le]
  version x hx := by
    obtain ⟨v, rfl, rfl⟩ := Option.map_eq_some_iff.1 hx
    simp [VersionContent.dense, toInt_ofNat_int32 v.userIndex_le]

theorem NodeContent.record_dense (n : NodeContent) (v : Option VersionContent) :
    (n.dense (v.map VersionContent.dense)).record =
      n.record ((v.map VersionContent.info).getD .absent) := by
  cases v <;> simp [DenseNode.record, dense, NodeContent.record, TagIndices.pair,
    VersionContent.dense, VersionContent.info, DenseVersion.info, Function.comp_def]

namespace NodeBatch

def entries : NodeBatch → List (NodeContent × Option VersionContent)
  | bare nodes => nodes.map fun n => (n, none)
  | versioned nodes => nodes.map fun (n, v) => (n, some v)

theorem records_plain (nodes : NodeBatch) : nodes.plain.records = nodes.entries.map fun e =>
    .node (e.1.record ((e.2.map VersionContent.info).getD .absent)) := by
  cases nodes <;> simp [plain, Group.records, entries]

theorem records_dense (nodes : NodeBatch) : nodes.dense.records = nodes.entries.map fun e =>
    .dense (e.1.dense (e.2.map VersionContent.dense)) := by
  cases nodes with
  | bare nodes =>
    have h := entries_denseNodes nodes id (fun _ => none) none []
      (by simp [List.map_const'])
    rw [List.map_id] at h
    simp [dense, Group.records, entries, h]
  | versioned nodes =>
    -- The version data goes as far as the nodes do, and what is added stands past the last one.
    have hinfo : (denseInfo (nodes.map Prod.snd)).entries.map some =
        nodes.map fun e => some e.2.dense := by
      rw [entries_denseInfo, List.map_map, List.map_map]
      rfl
    have h := entries_denseNodes nodes Prod.fst (fun e => some e.2.dense)
      (some (denseInfo (nodes.map Prod.snd))) _ (congrArg (· ++ _) hinfo)
    simp [dense, Group.records, entries, h]

theorem toEntity_dense (nodes : NodeBatch) (block : Block) :
    nodes.dense.records.map (Record.toEntity block) =
      nodes.plain.records.map (Record.toEntity block) := by
  rw [records_dense, records_plain, List.map_map, List.map_map]
  refine List.map_congr_left fun e _ => ?_
  have hnode := DenseNode.toNode_record (e.1.unsigned_dense e.2) block
  rw [NodeContent.record_dense] at hnode
  simp only [Function.comp_apply, Record.toEntity, hnode]

theorem toEntity_plain (nodes : NodeBatch) (block : Block) :
    nodes.plain.records.map (Record.toEntity block) = nodes.results block := by
  cases nodes with
  | bare nodes => simp [plain, Group.records, results, toEntity_absent]
  | versioned nodes => simp [plain, Group.records, results, toEntity_info]

end NodeBatch

theorem Record.toEntity_holding (block : Block) (before : List Group) (g : Group)
    (after : List Group) (r : Record) :
    r.toEntity (block.holding before g after) = r.toEntity block := by
  cases r <;> rfl

theorem Stream.ofRecords_congr {block block' : Block} {rs rs' : List Record}
    (h : rs.map (Record.toEntity block) = rs'.map (Record.toEntity block')) :
    ofRecords block rs = ofRecords block' rs' := by
  induction rs generalizing rs' with
  | nil =>
    obtain rfl := List.map_eq_nil_iff.1 h.symm
    rfl
  | cons r rs ih =>
    obtain ⟨r', rs', rfl, hr, hrs⟩ := List.map_eq_cons_iff.1 h.symm
    simp only [ofRecords, hr, ih hrs.symm]

/-- However nodes are sent, each gives the same result, and the whole block is read alike. -/
theorem NodeBatch.encodings_alike (nodes : NodeBatch) (block : Block) :
    nodes.dense.records.map (Record.toEntity block) = nodes.results block ∧
    nodes.plain.records.map (Record.toEntity block) = nodes.results block ∧
    ∀ before after,
      Stream.ofRecords (block.holding before nodes.dense after)
          (block.holding before nodes.dense after).records =
        Stream.ofRecords (block.holding before nodes.plain after)
          (block.holding before nodes.plain after).records := by
  have hplain := nodes.toEntity_plain block
  refine ⟨(nodes.toEntity_dense block).trans hplain, hplain, fun before after => ?_⟩
  have hsplit (g : Group) : (block.holding before g after).records =
      before.flatMap Group.records ++ (g.records ++ after.flatMap Group.records) := by
    simp [Block.records, Block.holding]
  have hread (g : Group) : Record.toEntity (block.holding before g after) = Record.toEntity block :=
    funext fun r => r.toEntity_holding block before g after
  refine Stream.ofRecords_congr ?_
  rw [hread, hread, hsplit, hsplit]
  simp only [List.map_append, nodes.toEntity_dense block]

end MapLoader.Extract
