import MapLoader.Proofs.Load.Conservation
import MapLoader.SortedMap.Lemmas

/-! What the tables and the buffers hold together of a stream. Elements are kept in order; of the
authors with one id at least one is kept; and if no id is repeated, every list of members is kept
once. Moving a buffer to its table changes none of this. -/

namespace MapLoader

open scoped List

/-- Every row is that of an author, and every author's id has a row. -/
structure Authored (us : List User) (rows : List Row) : Prop where
  sound : ∀ r ∈ rows, ∃ u ∈ us,
    r = [.integer u.id, .text (if u.name = "" then "NO_NAME_FOUND" else u.name)]
  complete : ∀ u ∈ us, ∃ name, [.integer u.id, .text name] ∈ rows

/-- Unless an id is repeated, the lists are those written, one after another, and those that
wait. -/
def Gathered {α : Type} (expand : Int × List α → List Row) (lists : List (Int × List α))
    (rows : List Row) (waiting : SortedMap Int (List α)) : Prop :=
  (lists.map Prod.fst).Nodup →
    ∃ past, rows = past.flatMap expand ∧ past ++ waiting.toList ~ lists

namespace Gathered

variable {α : Type} {expand : Int × List α → List Row} {lists : List (Int × List α)}
  {rows : List Row} {waiting : SortedMap Int (List α)}

theorem insert (h : Gathered expand lists rows waiting) (id : Int) (list : List α) :
    Gathered expand (lists ++ [(id, list)]) rows (waiting.insert id list) := by
  intro hn
  rw [List.map_append, List.nodup_append] at hn
  obtain ⟨past, hr, hp⟩ := h hn.1
  refine ⟨past, hr, ?_⟩
  have hid : id ∉ waiting.keys := by
    intro hmem
    obtain ⟨e, he, hid⟩ := List.mem_map.1 hmem
    have hmem : id ∈ lists.map Prod.fst :=
      hid ▸ List.mem_map_of_mem (hp.mem_iff.1 (List.mem_append_right past he))
    exact hn.2.2 id hmem id (by simp) rfl
  calc past ++ (waiting.insert id list).toList
    _ ~ past ++ (id, list) :: waiting.toList := (SortedMap.perm_insert list hid).append_left past
    _ ~ (id, list) :: (past ++ waiting.toList) := List.perm_middle
    _ ~ (id, list) :: lists := hp.cons _
    _ ~ lists ++ [(id, list)] := (List.perm_append_singleton _ _).symm

theorem flush (h : Gathered expand lists rows waiting) :
    Gathered expand lists (rows ++ waiting.toList.flatMap expand) .empty := by
  intro hn
  obtain ⟨past, hr, hp⟩ := h hn
  exact ⟨past ++ waiting.toList, by simp [hr], by simpa using hp⟩

theorem all (h : Gathered expand lists rows waiting) (hw : waiting.size = 0)
    (hn : (lists.map Prod.fst).Nodup) : ∃ past, past ~ lists ∧ rows = past.flatMap expand := by
  obtain ⟨past, hr, hp⟩ := h hn
  have hnil : waiting.toList = [] := List.length_eq_zero_iff.1 hw
  rw [hnil, List.append_nil] at hp
  exact ⟨past, hp, hr⟩

end Gathered

namespace Authored

variable {us : List User} {rows rows' : List Row}

/-- An author whose id has a row already needs no other. -/
theorem known (h : Authored us rows) {u v : User} (hv : v.id = u.id) (hm : authorRow v ∈ rows) :
    Authored (us ++ [u]) rows := by
  refine ⟨fun r hr => ?_, fun x hx => ?_⟩
  · obtain ⟨w, hw, rfl⟩ := h.sound r hr
    exact ⟨w, List.mem_append_left _ hw, rfl⟩
  · rcases List.mem_append.1 hx with hx | hx
    · exact h.complete x hx
    · rw [List.mem_singleton.1 hx, ← hv]
      exact ⟨_, hm⟩

theorem new (h : Authored us rows) {u : User}
    (hr : ∀ r, r ∈ rows' ↔ r = authorRow u ∨ r ∈ rows) : Authored (us ++ [u]) rows' := by
  refine ⟨fun r hm => ?_, fun x hx => ?_⟩
  · rcases (hr r).1 hm with rfl | hm
    · exact ⟨u, by simp, rfl⟩
    · obtain ⟨w, hw, rfl⟩ := h.sound r hm
      exact ⟨w, List.mem_append_left _ hw, rfl⟩
  · rcases List.mem_append.1 hx with hx | hx
    · obtain ⟨name, hm⟩ := h.complete x hx
      exact ⟨name, (hr _).2 (.inr hm)⟩
    · rw [List.mem_singleton.1 hx]
      exact ⟨_, (hr _).2 (.inl rfl)⟩

end Authored

namespace Buffers

theorem rows_batch_users (b : Buffers) :
    (b.batch .users).rows = b.users.toList.map fun e => authorRow ⟨e.1, e.2⟩ := by
  simp [batch, Batch.rows, Batch.bindings, User.binding, User.row_eq, Function.comp_def]

theorem rows_batch_wayNodes (b : Buffers) :
    (b.batch .wayNodes).rows = b.wayNodes.toList.flatMap wayListRows := by
  simp only [batch, Batch.rows, Batch.bindings, List.map_flatMap, List.map_map]
  exact congrArg (List.flatMap · _) (funext map_row_wayNodes)

theorem rows_batch_relationMembers (b : Buffers) :
    (b.batch .relationMembers).rows = b.relationMembers.toList.flatMap memberListRows := by
  simp only [batch, Batch.rows, Batch.bindings, List.map_flatMap, List.map_map]
  exact congrArg (List.flatMap · _) (funext map_row_relationMembers)

theorem rows_batch_of_size {b : Buffers} {t : Table} (h : b.size t = 0) :
    (b.batch t).rows = [] := by
  cases t with
  | users =>
    have hl : b.users.toList = [] := List.length_eq_zero_iff.1 h
    simp [rows_batch_users, hl]
  | wayNodes =>
    have hl : b.wayNodes.toList = [] := List.length_eq_zero_iff.1 h
    simp [rows_batch_wayNodes, hl]
  | relationMembers =>
    have hl : b.relationMembers.toList = [] := List.length_eq_zero_iff.1 h
    simp [rows_batch_relationMembers, hl]
  | nodes =>
    have hl : b.nodes = #[] := Array.size_eq_zero_iff.1 h
    simp [batch, Batch.rows, Batch.bindings, hl]
  | ways =>
    have hl : b.ways = #[] := Array.size_eq_zero_iff.1 h
    simp [batch, Batch.rows, Batch.bindings, hl]
  | relations =>
    have hl : b.relations = #[] := Array.size_eq_zero_iff.1 h
    simp [batch, Batch.rows, Batch.bindings, hl]

end Buffers

theorem Authored.addUser {us : List User} {rows : List Row} {b : Buffers}
    (h : Authored us (rows ++ (b.batch .users).rows)) (u : User) :
    Authored (us ++ [u]) (rows ++ ((b.addUser u).batch .users).rows) := by
  by_cases hc : b.users.contains u.id
  · -- The row of the one who waits has the same id, though perhaps another name.
    have hbu : b.addUser u = b := if_pos hc
    obtain ⟨e, he, hid⟩ := List.mem_map.1 ((b.users.contains_iff u.id).1 hc)
    have hrow : authorRow ⟨e.1, e.2⟩ ∈ (b.batch .users).rows := by
      rw [Buffers.rows_batch_users]
      exact List.mem_map.2 ⟨e, he, rfl⟩
    rw [hbu]
    exact h.known (v := ⟨e.1, e.2⟩) hid (List.mem_append_right _ hrow)
  · have hbu : (b.addUser u).users = b.users.insert u.id u.name := by
      simp [Buffers.addUser, hc]
    have hid : u.id ∉ b.users.keys := fun hm => hc ((b.users.contains_iff u.id).2 hm)
    have hp := (SortedMap.perm_insert u.name hid).map fun e : Int × String =>
      authorRow ⟨e.1, e.2⟩
    rw [Buffers.rows_batch_users] at h ⊢
    rw [hbu]
    refine h.new fun r => ?_
    simp only [List.mem_append, hp.mem_iff, List.map_cons, List.mem_cons]
    exact or_left_comm

/-- What was executed and what waits make up a stream with these authors and elements. -/
structure Content (us : List User) (es : List Entity) (executed : Table → List Row)
    (b : Buffers) : Prop where
  elements (k : ElementKind) : elementRows k es = executed k.table ++ (b.batch k.table).rows
  users : Authored us (executed .users ++ (b.batch .users).rows)
  wayNodes : Gathered wayListRows (wayLists es) (executed .wayNodes) b.wayNodes
  relationMembers :
    Gathered memberListRows (memberLists es) (executed .relationMembers) b.relationMembers

namespace Content

variable {us : List User} {es : List Entity} {executed : Table → List Row} {b : Buffers}

theorem empty : Content [] [] (fun _ => []) {} where
  elements k := by cases k <;> rfl
  users := ⟨nofun, nofun⟩
  wayNodes _ := ⟨[], rfl, .refl _⟩
  relationMembers _ := ⟨[], rfl, .refl _⟩

theorem author (h : Content us es executed b) (u : User) :
    Content (us ++ [u]) es executed (b.addUser u) := by
  have hb : (b.addUser u).wayNodes = b.wayNodes ∧
      (b.addUser u).relationMembers = b.relationMembers := by
    unfold Buffers.addUser
    split <;> exact ⟨rfl, rfl⟩
  refine ⟨fun k => ?_, h.users.addUser u, ?_, ?_⟩
  · rw [h.elements k, Buffers.batch_addUser b u k.table_ne_users]
  · rw [hb.1]
    exact h.wayNodes
  · rw [hb.2]
    exact h.relationMembers

theorem element (h : Content us es executed b) (e : Entity) :
    Content us (es ++ [e]) executed (b.addElement e) := by
  refine ⟨fun k => ?_, ?_, ?_, ?_⟩
  · rw [elementRows_append, h.elements k, Buffers.rows_batch_addElement, List.append_assoc]
  · cases e <;> exact h.users
  · cases e with
    | way w =>
      simpa [wayLists, Buffers.addElement, Buffers.addWay] using
        h.wayNodes.insert w.id w.nodeRefs
    | node n => simpa [wayLists, Buffers.addElement, Buffers.addNode] using h.wayNodes
    | relation r => simpa [wayLists, Buffers.addElement, Buffers.addRelation] using h.wayNodes
  · cases e with
    | way w => simpa [memberLists, Buffers.addElement, Buffers.addWay] using h.relationMembers
    | node n => simpa [memberLists, Buffers.addElement, Buffers.addNode] using h.relationMembers
    | relation r =>
      simpa [memberLists, Buffers.addElement, Buffers.addRelation] using
        h.relationMembers.insert r.id r.members

theorem flush (h : Content us es executed b) (t : Table) :
    Content us es (fun u => executed u ++ if t = u then (b.batch t).rows else []) (b.clear t) := by
  refine ⟨fun k => ?_, ?_, ?_, ?_⟩
  · rw [h.elements k, Buffers.rows_batch_clear]
    by_cases hk : t = k.table
    · simp [hk]
    · simp [hk, Ne.symm hk]
  · rw [Buffers.rows_batch_clear]
    have hu := h.users
    by_cases ht : t = .users
    · simpa [ht] using hu
    · simpa [ht, Ne.symm ht] using hu
  · cases t with
    | wayNodes => simpa [Buffers.clear, Buffers.rows_batch_wayNodes] using h.wayNodes.flush
    | users | nodes | ways | relations | relationMembers =>
      simpa [Buffers.clear] using h.wayNodes
  · cases t with
    | relationMembers =>
      simpa [Buffers.clear, Buffers.rows_batch_relationMembers] using h.relationMembers.flush
    | users | nodes | ways | wayNodes | relations =>
      simpa [Buffers.clear] using h.relationMembers

end Content

end MapLoader
