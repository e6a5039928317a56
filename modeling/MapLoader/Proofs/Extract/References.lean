import Mathlib.Data.List.Forall2
import MapLoader.Proofs.Load.Extract
import MapLoader.Proofs.Text.Utf8
import MapLoader.SortedMap.Lemmas

/-! What becomes of the strings that a record refers to. A role or the name of an author that is
missing costs the whole element, which is counted. A tag whose key or value is missing costs this
tag and those after it, and nothing is counted. -/

namespace MapLoader

def Malformed.index : Malformed → Nat
  | indexOutOfBounds i => i
  | notText i _ => i

namespace Entity

def id : Entity → Int
  | node n => n.id
  | way w => w.id
  | relation r => r.id

def tags : Entity → Tags
  | node n => n.tags
  | way w => w.tags
  | relation r => r.tags

def members : Entity → List Member
  | relation r => r.members
  | _ => []

end Entity

namespace Extract

/-- The string at an index of the table is this text. -/
def Names (strings : StringTable) (i : Nat) (s : String) : Prop :=
  strings[i]? = some (Text.utf8 s)

/-- The index is past the end of the table, or the string there is not text. -/
def Missing (strings : StringTable) (i : Nat) : Prop := ∀ s, ¬ Names strings i s

variable {strings : StringTable}

/-- A look-up finds the text that an index names, or tells under which index there is none. -/
theorem lookup_cases (strings : StringTable) (i : Nat) :
    (∃ s, lookup strings i = .ok s ∧ Names strings i s) ∨
      ∃ reason, lookup strings i = .error reason ∧ reason.index = i ∧ Missing strings i := by
  unfold lookup Missing Names
  cases strings[i]? with
  | none => exact .inr ⟨_, rfl, rfl, fun s h => by cases h⟩
  | some bs =>
    cases h : Text.decodeUtf8 bs with
    | ok s => exact .inl ⟨s, by simp [h, Except.mapError],
        congrArg some (Text.decodeUtf8_eq_ok_iff.1 h)⟩
    | error e =>
      refine .inr ⟨.notText i e, by simp [h, Except.mapError], rfl, fun s hs => ?_⟩
      rw [Text.decodeUtf8_eq_ok_iff.2 (Option.some.inj hs)] at h
      cases h

theorem Names.not_missing {i : Nat} {s : String} (h : Names strings i s) : ¬ Missing strings i :=
  fun hm => hm s h

theorem missing_iff {i : Nat} :
    Missing strings i ↔ ∃ reason, lookup strings i = .error reason := by
  obtain ⟨s, hs, hn⟩ | ⟨reason, hr, -, hm⟩ := lookup_cases strings i
  · exact ⟨fun h => absurd h hn.not_missing, fun ⟨_, h⟩ => by rw [hs] at h; cases h⟩
  · exact ⟨fun _ => ⟨reason, hr⟩, fun _ => hm⟩

instance (i : Nat) : Decidable (Missing strings i) :=
  decidable_of_iff ((lookup strings i).toOption = none) (by
    rw [missing_iff]
    cases lookup strings i <;> simp [Except.toOption])

/-- How a record refers to its author: not at all, by his id alone, or by the place of his name as
well. A place without an id does not count. -/
inductive AuthorRef
  | absent
  | unnamed (id : Int)
  | named (id : Int) (index : Nat)

namespace AuthorRef

def index? : AuthorRef → Option Nat
  | absent | unnamed _ => none
  | named _ i => some i

def Names (strings : StringTable) : AuthorRef → User → Prop
  | absent, u => u = .unknown
  | unnamed id, u => u = ⟨id, ""⟩
  | named id i, u => u.id = id ∧ Extract.Names strings i u.name

/-- The author is found and stands in the metadata, or his name is missing. -/
inductive Resolves (strings : StringTable) (a : AuthorRef) : Except Malformed Metadata → Prop
  | found {m : Metadata} : a.Names strings m.user → (∀ i ∈ a.index?, ¬ Missing strings i) →
      Resolves strings a (.ok m)
  | missing {reason : Malformed} : reason.index ∈ a.index? → Missing strings reason.index →
      Resolves strings a (.error reason)

end AuthorRef

def VersionInfo.author (info : VersionInfo) : AuthorRef :=
  match info.userId, info.userIndex with
  | none, _ => .absent
  | some id, none => .unnamed id.toInt
  | some id, some i => .named id.toInt i.toNat

def DenseVersion.author (v : DenseVersion) : AuthorRef :=
  .named v.userId.toInt (indexOf v.userIndex)

def DenseNode.author (n : DenseNode) : AuthorRef := (n.version.map DenseVersion.author).getD .absent

theorem AuthorRef.resolves_lookup (strings : StringTable) (id : Int) (i : Nat)
    (metadata : String → Metadata) (h : ∀ name, (metadata name).user = ⟨id, name⟩) :
    (named id i).Resolves strings ((lookup strings i).map metadata) := by
  obtain ⟨s, hs, hn⟩ | ⟨reason, hr, rfl, hm⟩ := lookup_cases strings i
  · rw [hs]
    refine .found ?_ (by simpa [index?] using hn.not_missing)
    rw [h s]
    exact ⟨rfl, hn⟩
  · rw [hr]
    exact .missing rfl hm

theorem VersionInfo.resolves_metadata (block : Block) (info : VersionInfo) :
    info.author.Resolves block.strings (info.metadata block) := by
  obtain ⟨version, timestamp, changeset, userId, userIndex⟩ := info
  cases userId with
  | none => exact .found rfl nofun
  | some id =>
    cases userIndex with
    | none => exact .found rfl nofun
    | some i =>
      have h := AuthorRef.resolves_lookup block.strings id.toInt i.toNat (fun name =>
        { version := (version.getD 0).toInt
          user := ⟨id.toInt, name⟩
          timestampMillis := timestamp.map block.milliseconds
          changeset := (changeset.getD 0).toInt }) fun _ => rfl
      simp only [metadata, user]
      generalize lookup block.strings i.toNat = x at h ⊢
      cases x <;> exact h

theorem DenseNode.resolves_metadata (block : Block) (n : DenseNode) :
    n.author.Resolves block.strings (n.metadata block) := by
  unfold author metadata
  cases n.version with
  | none => exact .found rfl nofun
  | some v => exact AuthorRef.resolves_lookup block.strings _ _ _ fun _ => rfl

def NamesTag (strings : StringTable) (p : Nat × Nat) (t : String × String) : Prop :=
  Names strings p.1 t.1 ∧ Names strings p.2 t.2

/-- The tags of these indices as far as they go: all of them, or those before the first whose key
or value is missing. -/
structure ListsTags (strings : StringTable) (pairs : List (Nat × Nat))
    (texts : List (String × String)) : Prop where
  listed : List.Forall₂ (NamesTag strings) (pairs.take texts.length) texts
  cut : texts.length = pairs.length ∨
    ∃ p, pairs[texts.length]? = some p ∧ (Missing strings p.1 ∨ Missing strings p.2)

theorem listsTags_tagTexts (strings : StringTable) (pairs : List (Nat × Nat)) :
    ListsTags strings pairs (tagTexts strings pairs) := by
  induction pairs with
  | nil => exact ⟨.nil, .inl rfl⟩
  | cons p rest ih =>
    obtain ⟨k, v⟩ := p
    obtain ⟨key, hk, hkey⟩ | ⟨_, hk, -, hkey⟩ := lookup_cases strings k
    · obtain ⟨value, hv, hvalue⟩ | ⟨_, hv, -, hvalue⟩ := lookup_cases strings v
      · rw [tagTexts, hk, hv]
        exact ⟨.cons ⟨hkey, hvalue⟩ ih.listed, by simpa using ih.cut⟩
      · rw [tagTexts, hk, hv]
        exact ⟨.nil, .inr ⟨(k, v), rfl, .inr hvalue⟩⟩
    · rw [tagTexts, hk]
      exact ⟨.nil, .inr ⟨(k, v), rfl, .inl hkey⟩⟩

/-- A member with its role, in the order of the record. -/
def NamesMember (strings : StringTable) (r : MemberRecord) (m : Member) : Prop :=
  m.id = r.id.toInt ∧ memberKind? r.type = some m.kind ∧ Names strings (indexOf r.role) m.role

/-- Members are read in order, until a role is missing or a type is unknown. -/
theorem readMembers_cases (strings : StringTable) (rs : List MemberRecord) :
    (∃ ms, readMembers strings rs = .ok ms ∧ List.Forall₂ (NamesMember strings) rs ms) ∨
    (∃ reason, readMembers strings rs = .error (.malformed reason) ∧
      reason.index ∈ rs.map (fun r => indexOf r.role) ∧ Missing strings reason.index) ∨
    ∃ code, readMembers strings rs = .error (.unknownMemberType code) ∧
      ∃ r ∈ rs, memberKind? r.type = none := by
  induction rs with
  | nil => exact .inl ⟨[], rfl, .nil⟩
  | cons r rest ih =>
    unfold readMembers MemberRecord.toMember
    cases hkind : memberKind? r.type with
    | none => exact .inr (.inr ⟨_, rfl, r, List.mem_cons_self, hkind⟩)
    | some kind =>
      obtain ⟨role, hl, hrole⟩ | ⟨reason, hl, hi, hrole⟩ :=
        lookup_cases strings (indexOf r.role)
      · simp only [hl]
        obtain ⟨ms, hms, hall⟩ | ⟨reason, hms, hi, hm⟩ | ⟨code, hms, x, hx, hn⟩ := ih
        · rw [hms]
          exact .inl ⟨_, rfl, .cons ⟨rfl, hkind, hrole⟩ hall⟩
        · rw [hms]
          exact .inr (.inl ⟨reason, rfl, List.mem_cons_of_mem _ hi, hm⟩)
        · rw [hms]
          exact .inr (.inr ⟨code, rfl, x, List.mem_cons_of_mem _ hx, hn⟩)
      · simp only [hl]
        exact .inr (.inl ⟨reason, rfl, hi ▸ List.mem_cons_self, hi ▸ hrole⟩)

namespace Record

def id : Record → Int
  | node r => r.id.toInt
  | dense n => n.id.toInt
  | way r => r.id.toInt
  | relation r => r.id.toInt

def kind : Record → ElementKind
  | node _ | dense _ => .node
  | way _ => .way
  | relation _ => .relation

def author : Record → AuthorRef
  | node r => r.info.author
  | dense n => n.author
  | way r => r.info.author
  | relation r => r.info.author

def tagPairs : Record → List (Nat × Nat)
  | node r => pairIndices r.tagKeys r.tagValues
  | dense n => n.tagPairs
  | way r => pairIndices r.tagKeys r.tagValues
  | relation r => pairIndices r.tagKeys r.tagValues

def members : Record → List MemberRecord
  | relation r => r.members
  | _ => []

/-- The indices of the strings that an element cannot do without: the roles of the members and
the name of the author. -/
def references (r : Record) : List Nat :=
  r.members.map (fun m => indexOf m.role) ++ r.author.index?.toList

/-- One of these strings is missing. -/
def Broken (strings : StringTable) (r : Record) : Prop := ∃ i ∈ r.references, Missing strings i

instance (r : Record) : Decidable (r.Broken strings) :=
  inferInstanceAs (Decidable (∃ i ∈ r.references, Missing strings i))

/-- A member of this record is of a type that no reader knows. -/
def Unreadable (r : Record) : Prop := ∃ m ∈ r.members, memberKind? m.type = none

end Record

/-- The element of a record, with the author and all members as they are named. Under a key that
comes several times the last of its values is found. -/
structure Carries (strings : StringTable) (r : Record) (e : Entity) : Prop where
  kind : e.kind = r.kind
  id : e.id = r.id
  user : r.author.Names strings e.user
  members : List.Forall₂ (NamesMember strings) r.members e.members
  tags : ∃ texts, ListsTags strings r.tagPairs texts ∧
    ∀ key, e.tags.find? key = texts.reverse.lookup key

inductive Becomes (strings : StringTable) (r : Record) : Except ElementError Entity → Prop
  | loaded {e : Entity} : ¬ r.Broken strings → Carries strings r e → Becomes strings r (.ok e)
  | dropped {reason : Malformed} : reason.index ∈ r.references →
      Missing strings reason.index → Becomes strings r (.error (.malformed reason))
  | refused {code : Int32} : r.Unreadable → Becomes strings r (.error (.unknownMemberType code))

theorem exists_listsTags (strings : StringTable) (pairs : List (Nat × Nat)) :
    ∃ texts, ListsTags strings pairs texts ∧
      ∀ key, (tagsOf strings pairs).find? key = texts.reverse.lookup key :=
  ⟨_, listsTags_tagTexts strings _, SortedMap.find?_ofList _⟩

theorem roles_found {rs : List MemberRecord} {ms : List Member}
    (h : List.Forall₂ (NamesMember strings) rs ms) :
    ∀ r ∈ rs, ¬ Missing strings (indexOf r.role) := by
  induction h with
  | nil => simp
  | cons hr _ ih => exact List.forall_mem_cons.2 ⟨hr.2.2.not_missing, ih⟩

/-- With all roles and the author found no string is missing that the element needs. -/
theorem Record.not_broken {r : Record} {ms : List Member}
    (hm : List.Forall₂ (NamesMember strings) r.members ms)
    (hi : ∀ i ∈ r.author.index?, ¬ Missing strings i) : ¬ r.Broken strings := by
  rintro ⟨i, href, hmissing⟩
  rcases List.mem_append.1 href with h | h
  · obtain ⟨x, hx, rfl⟩ := List.mem_map.1 h
    exact roles_found hm x hx hmissing
  · exact hi i (Option.mem_toList.1 h) hmissing

/-- A record without members is dropped just if the name of its author is missing. -/
theorem becomes_of_resolves {α : Type} {r : Record} {x : Except Malformed Metadata}
    (h : r.author.Resolves strings x) (hr : r.members = []) {element : Metadata → α}
    {entity : α → Entity}
    (hc : ∀ m, r.author.Names strings m.user → Carries strings r (entity (element m))) :
    Becomes strings r (((x.map element).map entity).mapError .malformed) := by
  have hnone : List.Forall₂ (NamesMember strings) r.members [] := by
    rw [hr]
    exact .nil
  cases h with
  | found hu hf => exact .loaded (Record.not_broken hnone hf) (hc _ hu)
  | missing hi hm => exact .dropped (List.mem_append_right _ (Option.mem_toList.2 hi)) hm

theorem becomes_toEntity (block : Block) (r : Record) :
    Becomes block.strings r (r.toEntity block) := by
  cases r with
  | node r =>
    exact becomes_of_resolves (r.info.resolves_metadata block) rfl fun m hu =>
      ⟨rfl, rfl, hu, .nil, exists_listsTags block.strings _⟩
  | dense n =>
    exact becomes_of_resolves (n.resolves_metadata block) rfl fun m hu =>
      ⟨rfl, rfl, hu, .nil, exists_listsTags block.strings _⟩
  | way r =>
    exact becomes_of_resolves (r.info.resolves_metadata block) rfl fun m hu =>
      ⟨rfl, rfl, hu, .nil, exists_listsTags block.strings _⟩
  | relation r =>
    unfold Record.toEntity RelationRecord.toRelation
    dsimp only
    obtain ⟨ms, hms, hall⟩ | ⟨reason, hms, hi, hmissing⟩ | ⟨code, hms, hunreadable⟩ :=
      readMembers_cases block.strings r.members <;> rw [hms]
    · -- All roles were found, so it is left to the author whether the relation is dropped.
      have hauthor := r.info.resolves_metadata block
      generalize r.info.metadata block = x at hauthor
      cases hauthor with
      | found hu hf =>
        exact .loaded (Record.not_broken hall hf)
          ⟨rfl, rfl, hu, hall, exists_listsTags block.strings _⟩
      | missing hi hm => exact .dropped (List.mem_append_right _ (Option.mem_toList.2 hi)) hm
    · exact .dropped (List.mem_append_left _ hi) hmissing
    · exact .refused hunreadable

inductive Converts (strings : StringTable) (r : Record) : Item → Prop
  | loaded {e : Entity} : ¬ r.Broken strings → Carries strings r e → Converts strings r (.ok e)
  | dropped {reason : Malformed} : r.Broken strings → reason.index ∈ r.references →
      Missing strings reason.index → Converts strings r (.error reason)

namespace Stream

/-- The reader converts record after record, until one makes it give up. -/
theorem converts_ofRecords (block : Block) (rs : List Record) :
    let s := ofRecords block rs
    let done := rs.take s.items.length
    List.Forall₂ (Converts block.strings) done s.items ∧
    (s.ending = .complete ∧ done = rs ∨
      s.ending = .aborted ∧ ∃ r, rs[s.items.length]? = some r ∧ r.Unreadable) := by
  induction rs with
  | nil => exact ⟨.nil, .inl ⟨rfl, rfl⟩⟩
  | cons r rest ih =>
    obtain ⟨hall, hend⟩ := ih
    have hr := becomes_toEntity block r
    unfold ofRecords
    generalize r.toEntity block = x at hr ⊢
    have hcons : ∀ item, Converts block.strings r item →
        let s := (ofRecords block rest).cons item
        let done := (r :: rest).take s.items.length
        List.Forall₂ (Converts block.strings) done s.items ∧
        (s.ending = .complete ∧ done = r :: rest ∨
          s.ending = .aborted ∧ ∃ x, (r :: rest)[s.items.length]? = some x ∧ x.Unreadable) := by
      intro item hitem
      refine ⟨.cons hitem hall, ?_⟩
      rcases hend with ⟨hc, hd⟩ | ⟨ha, x, hx, hu⟩
      · exact .inl ⟨hc, congrArg (r :: ·) hd⟩
      · exact .inr ⟨ha, x, hx, hu⟩
    cases hr with
    | loaded hb hc => exact hcons _ (.loaded hb hc)
    | dropped hi hm => exact hcons _ (.dropped ⟨_, hi, hm⟩ hi hm)
    | refused hu => exact ⟨.nil, .inr ⟨rfl, r, rfl, hu⟩⟩

/-- As many elements are dropped as records are broken. -/
theorem length_malformed {rs : List Record} {s : Stream}
    (h : List.Forall₂ (Converts strings) rs s.items) :
    s.malformed.length = rs.countP fun r => r.Broken strings := by
  unfold malformed
  generalize s.items = items at h
  induction h with
  | nil => rfl
  | cons hitem _ ih =>
    cases hitem with
    | loaded hb => simpa [hb] using ih
    | dropped hb => simpa [hb] using ih

end Stream

end Extract

open Extract

/-- Records become elements as far as their strings are found. A record without the name of its
author or the role of a member is dropped, told and counted. Any other becomes an element with
this author and all members in order, but only with the tags before the first whose key or value
is missing. -/
theorem loadStream_resolves {σ κ : Type} [Store σ κ] (block : Block) (rs : List Record)
    (options : LoadOptions) (store : σ) (path : Path) :
    let s := Stream.ofRecords block rs
    let done := rs.take s.items.length
    let run := loadStream options store path s
    List.Forall₂ (Converts block.strings) done s.items ∧
    (s.ending = .complete ∧ done = rs ∨
      s.ending = .aborted ∧ ∃ r, rs[s.items.length]? = some r ∧ r.Unreadable) ∧
    run.readerLog = s.malformed.map .malformedElement ∧
    s.malformed.length = done.countP (fun r => r.Broken block.strings) ∧
    ∀ report, run.outcome = .ok report →
      report.malformed = rs.countP fun r => r.Broken block.strings := by
  obtain ⟨hall, hend⟩ := Stream.converts_ofRecords block rs
  have hlength := Stream.length_malformed hall
  dsimp only [loadStream]
  refine ⟨hall, hend, LoadRun.readerLog_conclude, hlength, fun report h => ?_⟩
  rw [LoadRun.malformed_conclude h]
  rcases hend with ⟨-, hd⟩ | ⟨ha, -⟩
  · rw [hd] at hlength
    exact hlength
  · rw [ha] at h
    cases h

def busStop : Record :=
  .node { id := 1, tagKeys := [1, 3], tagValues := [2, 9], latitude := 0, longitude := 0 }

def busStopBlock : Block :=
  { strings := #[[], Text.utf8 "highway", Text.utf8 "bus_stop", Text.utf8 "name"] }

/-- Without its name the bus stop is loaded all the same, and no one is told. -/
theorem cut_tags_go_unnoticed : (3, 9) ∈ busStop.tagPairs ∧ Missing busStopBlock.strings 9 ∧
    ∃ e, busStop.toEntity busStopBlock = .ok e ∧ e.tags.toList = [("highway", "bus_stop")] ∧
      (Stream.ofRecords busStopBlock [busStop]).malformed = [] := by
  refine ⟨by decide, by decide, _, rfl, ?_, ?_⟩
  · decide
  · decide

end MapLoader
