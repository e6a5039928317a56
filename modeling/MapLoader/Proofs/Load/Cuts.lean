import Mathlib.Data.List.Induction
import Mathlib.Data.List.Nodup
import MapLoader.Proofs.Load.Trail
import MapLoader.Proofs.Load.Windows

/-! Where a load without faults cuts its batches. Every buffer is flushed as soon as it is full and
never holds more, so all batches are of one size but for the last of each table; and the batches of
a table are the blocks of what came for it. -/

namespace MapLoader

open scoped List

section

variable {α : Type}

/-- The j-th block of so many consecutive items; the last block may be shorter. -/
def block (r : Nat) (items : List α) (j : Nat) : List α := (items.drop (j * r)).take r

def blocks (r : Nat) (items : List α) : List (List α) :=
  (List.range ((items.length + (r - 1)) / r)).map (block r items)

def byId (lists : List (Int × List α)) : List (Int × List α) :=
  lists.mergeSort fun a b => a.1 ≤ b.1

variable {r : Nat} {items : List α}

@[simp] theorem blocks_nil (r : Nat) : blocks r ([] : List α) = [] := by
  rcases Nat.eq_zero_or_pos r with rfl | hr
  · simp [blocks]
  · simp [blocks, Nat.div_eq_of_lt (Nat.sub_lt hr Nat.one_pos)]

theorem blocks_append (hr : 0 < r) {g : List α} (hg : g.length = r) (items : List α) :
    blocks r (g ++ items) = g :: blocks r items := by
  have hcount : ((g ++ items).length + (r - 1)) / r = (items.length + (r - 1)) / r + 1 := by
    rw [List.length_append, hg, Nat.add_assoc, Nat.add_comm r, Nat.add_div_right _ hr]
  have hfirst : block r (g ++ items) 0 = g := by simp [block, ← hg]
  have hnext (j : Nat) : block r (g ++ items) (j + 1) = block r items j := by
    have hdrop : (j + 1) * r = g.length + j * r := by rw [Nat.succ_mul, hg, Nat.add_comm]
    rw [block, block, hdrop, List.drop_length_add_append]
  rw [blocks, hcount, List.range_succ_eq_map, List.map_cons, List.map_map, hfirst]
  exact congrArg (g :: ·) (List.map_congr_left fun j _ => hnext j)

theorem blocks_of_length_le (h : items ≠ []) (hr : items.length ≤ r) :
    blocks r items = [items] := by
  have hpos := List.length_pos_iff.2 h
  have hcount : (items.length + (r - 1)) / r = 1 :=
    Nat.div_eq_of_lt_le (by omega) (by omega)
  simp [blocks, hcount, block, List.take_of_length_le hr]

/-- Full blocks, and a rest that is shorter. -/
theorem blocks_flatten (hr : 0 < r) {groups : List (List α)} (hg : ∀ g ∈ groups, g.length = r)
    {rest : List α} (hrest : rest.length ≤ r) :
    blocks r (groups.flatten ++ rest) = groups ++ if rest = [] then [] else [rest] := by
  induction groups with
  | nil =>
    by_cases h : rest = []
    · simp [h]
    · simp [h, blocks_of_length_le h hrest]
  | cons g groups ih =>
    rw [List.flatten_cons, List.append_assoc, blocks_append hr (hg g List.mem_cons_self),
      ih fun g' hg' => hg g' (List.mem_cons_of_mem g hg')]
    rfl

theorem length_blocks (hr : 0 < r) (items : List α) : (blocks r items).map List.length =
    List.replicate (items.length / r) r ++
      if items.length % r = 0 then [] else [items.length % r] := by
  induction h : items.length / r generalizing items with
  | zero =>
    have hlt : items.length < r := (Nat.div_eq_zero_iff.1 h).resolve_left (Nat.ne_of_gt hr)
    rw [Nat.mod_eq_of_lt hlt]
    by_cases hi : items = []
    · simp [hi]
    · simp [blocks_of_length_le hi (Nat.le_of_lt hlt), hi]
  | succ n ih =>
    have hle : r ≤ items.length := by
      by_contra hlt
      rw [Nat.div_eq_of_lt (Nat.lt_of_not_le hlt)] at h
      exact absurd h (Nat.succ_ne_zero n).symm
    have hlen : (items.drop r).length = items.length - r := List.length_drop
    have hdiv : (items.drop r).length / r = n := by
      rw [Nat.div_eq_sub_div hr hle, ← hlen] at h
      exact Nat.succ.inj h
    have hmod : (items.drop r).length % r = items.length % r := by
      rw [hlen, ← Nat.mod_eq_sub_mod hle]
    have htake : (items.take r).length = r := List.length_take_of_le hle
    rw [← List.take_append_drop r items, blocks_append hr htake, List.map_cons, ih _ hdiv, hmod,
      htake, List.take_append_drop]
    rfl

theorem eq_byId {sorted lists : List (Int × List α)} (h : sorted ~ lists)
    (hs : (sorted.map Prod.fst).Pairwise (· < ·)) : sorted = byId lists := by
  have hperm : sorted ~ byId lists := h.trans (List.mergeSort_perm lists _).symm
  have hle : (byId lists).Pairwise fun a b => a.1 ≤ b.1 :=
    (List.pairwise_mergeSort (by simpa using fun _ _ _ => Int.le_trans)
      (by simpa using Int.le_total) lists).imp (by simp)
  have hinj := List.inj_on_of_nodup_map (hs.imp Int.ne_of_lt)
  exact List.Perm.eq_of_pairwise
    (fun a b ha hb hab hba => hinj ha (hperm.mem_iff.2 hb) (Int.le_antisymm hab hba))
    ((List.pairwise_map.1 hs).imp Int.le_of_lt) hle hperm

end

namespace SortedMap

theorem size_insert_le {κ α : Type} [Ord κ] [Std.TransOrd κ] [Std.LawfulEqOrd κ] [DecidableEq κ]
    (m : SortedMap κ α) (k : κ) (a : α) : (m.insert k a).size ≤ m.size + 1 := by
  have h := (m.perm_insert_replaced k a).length_eq
  rw [List.length_append, List.length_cons] at h
  exact Nat.le_trans (Nat.le_add_left _ _) (Nat.le_of_eq h)

end SortedMap

namespace Buffers

theorem size_addUser_le (b : Buffers) (u : User) (t : Table) :
    (b.addUser u).size t ≤ b.size t + if t ∈ [Table.users] then 1 else 0 := by
  unfold addUser
  split
  · exact Nat.le_add_right _ _
  · cases t with
    | users => exact b.users.size_insert_le u.id u.name
    | nodes | ways | wayNodes | relations | relationMembers => exact Nat.le_refl _

theorem size_addElement_le (b : Buffers) (e : Entity) (t : Table) :
    (b.addElement e).size t ≤ b.size t + if t ∈ e.tables then 1 else 0 := by
  have hw (w : Way) := b.wayNodes.size_insert_le w.id w.nodeRefs
  have hr (r : Relation) := b.relationMembers.size_insert_le r.id r.members
  cases e <;> cases t <;>
    simp [addElement, addNode, addWay, addRelation, size, Entity.tables, hw, hr]

end Buffers

namespace Plan

def on (p : Plan) (t : Table) : List Batch := p.batches.filter fun x => x.table = t

/-- All batches are of one size. No buffer holds more entries than that, and only the buffers that
are due to be flushed hold as many. -/
structure Shaped (r : Nat) (due : List Table) (p : Plan) : Prop where
  batches : ∀ x ∈ p.batches, x.size = r
  room (t : Table) : p.buffers.size t ≤ r
  spare {t : Table} : t ∉ due → p.buffers.size t < r

section

variable {row : Nat} {p : Plan}

/-- Buffering one more entry for each of some tables. -/
theorem Shaped.buffer {r : Nat} (h : Shaped r [] p) (f : Buffers → Buffers) {ts : List Table}
    (hf : ∀ t, (f p.buffers).size t ≤ p.buffers.size t + if t ∈ ts then 1 else 0) :
    Shaped r ts { p with buffers := f p.buffers } := by
  refine ⟨h.batches, fun t => ?_, fun {t} ht => ?_⟩
  · have hroom : p.buffers.size t < r := h.spare (List.not_mem_nil)
    have hone : (if t ∈ ts then 1 else 0) ≤ 1 := by split <;> decide
    exact Nat.le_trans (hf t) (Nat.le_trans (Nat.add_le_add_left hone _) hroom)
  · exact Nat.lt_of_le_of_lt (by simpa [ht] using hf t) (h.spare List.not_mem_nil)

theorem Shaped.flushIfFull {t : Table} {ts : List Table} (h : Shaped (max 1 row) (t :: ts) p) :
    Shaped (max 1 row) ts (p.flushIfFull row t) := by
  have hspare {u : Table} (hu : u ∉ ts) (hne : u ≠ t) : p.buffers.size u < max 1 row :=
    h.spare fun hm => (List.mem_cons.1 hm).elim hne hu
  have hroom := h.room t
  unfold Plan.flushIfFull
  split
  · rename_i hfull
    refine ⟨fun x hx => ?_, fun u => ?_, fun {u} hu => ?_⟩
    · unfold Plan.flush at hx
      split at hx
      · exact h.batches x hx
      · rcases List.mem_append.1 hx with hx | hx
        · exact h.batches x hx
        · rw [List.mem_singleton.1 hx, Buffers.size_batch]
          omega
    · rw [size_flush]
      split
      · exact Nat.zero_le _
      · exact h.room u
    · rw [size_flush]
      split
      · omega
      · exact hspare hu ‹_›
  · refine ⟨h.batches, h.room, fun {u} hu => ?_⟩
    by_cases hne : u = t
    · rw [hne]
      omega
    · exact hspare hu hne

/-- Where an entry is one row, all batches are of one number of rows. -/
theorem Shaped.length_rows {r : Nat} {due : List Table} (h : Shaped r due p) {t : Table}
    (ht : t.isMemberList = false) {x : Batch} (hx : x ∈ p.on t) : x.rows.length = r := by
  have hxt : x.table = t := of_decide_eq_true (List.mem_filter.1 hx).2
  rw [Batch.length_rows (hxt ▸ ht), h.batches x (List.mem_of_mem_filter hx)]

theorem Shaped.add (h : Shaped (max 1 row) [] p) (e : Entity) :
    Shaped (max 1 row) [] (p.add row e) := by
  have hu : Shaped (max 1 row) [] (p.addUser row e.user) := by
    unfold addUser
    split
    · exact h
    · exact (h.buffer (·.addUser e.user) (p.buffers.size_addUser_le e.user)).flushIfFull
  have hs : Shaped (max 1 row) e.tables (p.stage row e) :=
    hu.buffer (·.addElement e) ((p.addUser row e.user).buffers.size_addElement_le e)
  rw [Plan.add]
  generalize e.tables = ts at hs ⊢
  generalize p.stage row e = q at hs ⊢
  induction ts generalizing q with
  | nil => exact hs
  | cons t ts ih => exact ih _ hs.flushIfFull

theorem shaped_ofEntities (row : Nat) (es : List Entity) :
    Shaped (max 1 row) [] (ofEntities row es) := by
  have hpos : 0 < max 1 row := by omega
  refine List.foldlRecOn es (add row) ⟨nofun, fun t => ?_, fun {t} _ => ?_⟩
    fun p hp e _ => hp.add e
  · cases t <;> exact Nat.zero_le _
  · cases t <;> exact hpos

theorem on_flush (p : Plan) (t u : Table) : (p.flush u).on t =
    p.on t ++ if u = t ∧ p.buffers.size t ≠ 0 then [p.buffers.batch t] else [] := by
  unfold flush
  by_cases hz : p.buffers.size u = 0
  · rw [if_pos hz, if_neg fun h => h.2 (h.1 ▸ hz), List.append_nil]
  · by_cases hu : u = t
    · subst hu
      simp [on, hz]
    · simp [on, hz, hu]

theorem on_flushes (p : Plan) {ts : List Table} (hts : ts.Nodup) (t : Table) :
    (ts.foldl (fun p t => p.flush t) p).on t =
      p.on t ++ if t ∈ ts ∧ p.buffers.size t ≠ 0 then [p.buffers.batch t] else [] := by
  induction ts generalizing p with
  | nil => simp
  | cons u ts ih =>
    obtain ⟨hu, hts⟩ := List.nodup_cons.1 hts
    rw [List.foldl_cons, ih _ hts, on_flush, size_flush]
    by_cases htu : t = u
    · simp [htu, hu]
    · simp [htu, Ne.symm htu, batch_flush p htu]

/-- In the end what waits for a table makes up one more batch. -/
theorem on_finish (p : Plan) (t : Table) : p.finish.on t =
    p.on t ++ if p.buffers.size t = 0 then [] else [p.buffers.batch t] := by
  rw [finish, on_flushes p (by decide) t]
  by_cases hz : p.buffers.size t = 0 <;> simp [hz, Table.mem_all]

theorem dropLast_on_finish (p : Plan) (t : Table) {rows : List Row}
    (h : rows ∈ ((p.finish.on t).map Batch.rows).dropLast) : rows ∈ (p.on t).map Batch.rows := by
  rw [on_finish] at h
  split at h
  · rw [List.append_nil] at h
    exact (List.dropLast_sublist _).subset h
  · rwa [List.map_append, List.map_singleton, List.dropLast_concat] at h

end
end Plan

/-- What a table other than the users' is fed with: the item that an element brings, which items a
buffer holds, in the order they came, and the rows of a batch of some items. -/
structure Feed (α : Type) where
  table : Table
  item? : Entity → Option α
  /-- Items of which none takes the place of another. -/
  Apart : List α → Prop
  Waits : List α → Buffers → Prop
  rows : List α → List Row
  ne_users : table ≠ .users
  apart_of_sublist {xs ys : List α} : xs <+ ys → Apart ys → Apart xs
  waits_empty : Waits [] {}
  waits_clear {xs : List α} {b : Buffers} (t : Table) :
    Waits xs b → Waits (if table = t then [] else xs) (b.clear t)
  waits_addUser {xs : List α} {b : Buffers} (u : User) : Waits xs b → Waits xs (b.addUser u)
  waits_addElement {xs : List α} {b : Buffers} (e : Entity) : Apart (xs ++ (item? e).toList) →
    Waits xs b → Waits (xs ++ (item? e).toList) (b.addElement e)
  size_eq {xs : List α} {b : Buffers} : Waits xs b → b.size table = xs.length
  rows_batch {xs : List α} {b : Buffers} : Apart xs → Waits xs b → (b.batch table).rows = rows xs

namespace Feed

/-- The elements of a kind, each as its row. -/
def elements (k : ElementKind) : Feed Row where
  table := k.table
  item? e := if e.kind = k then some e.row else none
  Apart _ := True
  Waits rows b := (b.batch k.table).rows = rows
  rows := id
  ne_users := k.table_ne_users
  apart_of_sublist _ := id
  waits_empty := by cases k <;> rfl
  waits_clear t h := by rw [Buffers.rows_batch_clear, h]
  waits_addUser u h := by rw [Buffers.batch_addUser _ u k.table_ne_users, h]
  waits_addElement e _ h := by
    rw [Buffers.rows_batch_addElement, h]
    split <;> rfl
  size_eq {rows b} h := by
    have hk : (b.batch k.table).table.isMemberList = false := by cases k <;> rfl
    rw [← h, Batch.length_rows hk, Buffers.size_batch]
  rows_batch _ h := h

/-- Member lists, of which no two have one id. They are written in the order of their ids. -/
def ofLane {α : Type} (L : Lane α) : Feed (Int × List α) where
  table := L.table
  item? := L.list?
  Apart lists := (lists.map Prod.fst).Nodup
  Waits lists b := (L.waiting b).toList ~ lists
  rows lists := (byId lists).flatMap L.expand
  ne_users := L.ne_users.symm
  apart_of_sublist hs h := h.sublist (hs.map _)
  waits_empty := by rw [L.waiting_empty]; exact .refl _
  waits_clear {lists b} t h := by
    rw [L.waiting_clear]
    by_cases ht : L.table = t
    · rw [if_pos ht, if_pos ht.symm]
      exact .refl _
    · rw [if_neg ht, if_neg (Ne.symm ht)]
      exact h
  waits_addUser u h := by rwa [L.waiting_addUser]
  waits_addElement {lists b} e ha h := by
    rw [L.waiting_addElement]
    cases hl : L.list? e with
    | none => simpa using h
    | some l =>
      rw [hl, Option.toList_some, List.map_append, List.nodup_append] at ha
      have hid : l.1 ∉ (L.waiting b).keys := fun hm =>
        ha.2.2 l.1 ((h.map Prod.fst).mem_iff.1 hm) l.1 (by simp) rfl
      calc ((L.waiting b).insert l.1 l.2).toList
        _ ~ l :: (L.waiting b).toList := SortedMap.perm_insert l.2 hid
        _ ~ l :: lists := h.cons l
        _ ~ lists ++ [l] := (List.perm_append_singleton l lists).symm
  size_eq h := (L.size_eq _).trans h.length_eq
  rows_batch {lists b} _ h := by
    have hkeys : ((L.waiting b).toList.map Prod.fst).Pairwise (· < ·) :=
      (L.waiting b).pairwise_keys.imp fun h => Int.compare_eq_lt.1 h
    rw [L.rows_batch, eq_byId h hkeys]

end Feed

namespace Plan

variable {α : Type} {F : Feed α} {items : List α} {row : Nat} {p : Plan}

/-- The items that came are those of the batches, group by group, and those that wait. -/
def Cut (F : Feed α) (items : List α) (p : Plan) : Prop :=
  ∃ (groups : List (List α)) (waiting : List α),
    groups.flatten ++ waiting = items ∧ F.Waits waiting p.buffers ∧
    (p.on F.table).map Batch.size = groups.map List.length ∧
    (p.on F.table).map Batch.rows = groups.map F.rows

theorem Cut.flush (h : Cut F items p) (ha : F.Apart items) (t : Table) :
    Cut F items (p.flush t) := by
  obtain ⟨groups, waiting, hitems, hw, hsize, hrows⟩ := h
  have hsz := F.size_eq hw
  have hon := on_flush p F.table t
  unfold Plan.flush at hon ⊢
  by_cases hz : p.buffers.size t = 0
  · rw [if_pos hz]
    exact ⟨groups, waiting, hitems, hw, hsize, hrows⟩
  rw [if_neg hz] at hon ⊢
  have hclear := F.waits_clear t hw
  by_cases ht : F.table = t
  · have hrow := F.rows_batch (F.apart_of_sublist (hitems ▸ List.sublist_append_right _ _) ha) hw
    rw [if_pos ht] at hclear
    rw [if_pos ⟨ht.symm, ht.symm ▸ hz⟩] at hon
    refine ⟨groups ++ [waiting], [], by simpa using hitems, hclear, ?_, ?_⟩
    · simp [hon, hsize, Buffers.size_batch, hsz]
    · simp [hon, hrows, hrow]
  · rw [if_neg ht] at hclear
    rw [if_neg fun h => ht h.1.symm, List.append_nil] at hon
    exact ⟨groups, waiting, hitems, hclear, hon ▸ hsize, hon ▸ hrows⟩

theorem Cut.flushIfFull (h : Cut F items p) (ha : F.Apart items) (t : Table) :
    Cut F items (p.flushIfFull row t) := by
  unfold Plan.flushIfFull
  split
  · exact h.flush ha t
  · exact h

theorem Cut.add (h : Cut F items p) (e : Entity) (ha : F.Apart (items ++ (F.item? e).toList)) :
    Cut F (items ++ (F.item? e).toList) (p.add row e) := by
  have ha' : F.Apart items := F.apart_of_sublist (List.sublist_append_left _ _) ha
  have hu : Cut F items (p.addUser row e.user) := by
    unfold addUser
    split
    · exact h
    · obtain ⟨groups, waiting, hitems, hw, hsize, hrows⟩ := h
      have hb : Cut F items { p with buffers := p.buffers.addUser e.user } :=
        ⟨groups, waiting, hitems, F.waits_addUser e.user hw, hsize, hrows⟩
      exact hb.flushIfFull ha' .users
  have hs : Cut F (items ++ (F.item? e).toList) (p.stage row e) := by
    obtain ⟨groups, waiting, rfl, hw, hsize, hrows⟩ := hu
    rw [List.append_assoc] at ha ⊢
    have hw' := F.waits_addElement e (F.apart_of_sublist (List.sublist_append_right _ _) ha) hw
    exact ⟨groups, _, rfl, hw', hsize, hrows⟩
  rw [Plan.add]
  generalize p.stage row e = q at hs ⊢
  induction e.tables generalizing q with
  | nil => exact hs
  | cons t ts ih => exact ih _ (hs.flushIfFull ha t)

theorem cut_ofEntities (F : Feed α) (row : Nat) (es : List Entity)
    (ha : F.Apart (es.filterMap F.item?)) : Cut F (es.filterMap F.item?) (ofEntities row es) := by
  induction es using List.reverseRecOn with
  | nil => exact ⟨[], [], rfl, F.waits_empty, rfl, rfl⟩
  | append_singleton es e ih =>
    have hitems : (es ++ [e]).filterMap F.item? = es.filterMap F.item? ++ (F.item? e).toList := by
      cases h : F.item? e <;> simp [List.filterMap_append, h]
    rw [hitems] at ha ⊢
    rw [ofEntities, List.foldl_append]
    exact (ih (F.apart_of_sublist (List.sublist_append_left _ _) ha)).add e ha

/-- The batches written to a table in the end are the blocks of what came for it. -/
theorem rows_on_finish (F : Feed α) (row : Nat) (es : List Entity)
    (ha : F.Apart (es.filterMap F.item?)) :
    ((ofEntities row es).finish.on F.table).map Batch.rows =
      (blocks (max 1 row) (es.filterMap F.item?)).map F.rows := by
  have hshape := shaped_ofEntities row es
  obtain ⟨groups, waiting, hitems, hw, hsize, hrows⟩ := cut_ofEntities F row es ha
  have hgroups : ∀ g ∈ groups, g.length = max 1 row := by
    intro g hg
    have hmem : g.length ∈ groups.map List.length := List.mem_map_of_mem hg
    rw [← hsize] at hmem
    obtain ⟨x, hx, hlen⟩ := List.mem_map.1 hmem
    exact hlen ▸ hshape.batches x (List.mem_of_mem_filter hx)
  have hle : waiting.length ≤ max 1 row := F.size_eq hw ▸ hshape.room F.table
  have hrow := F.rows_batch (F.apart_of_sublist (hitems ▸ List.sublist_append_right _ _) ha) hw
  rw [← hitems, blocks_flatten (by omega) hgroups hle, on_finish, F.size_eq hw]
  by_cases hn : waiting = []
  · simp [hn, hrows]
  · simp [hn, hrows, hrow]

end Plan

theorem filterMap_elements (k : ElementKind) (es : List Entity) :
    es.filterMap (Feed.elements k).item? = elementRows k es := by
  rw [elementRows, ← List.filterMap_eq_map, ← List.filterMap_eq_filter, List.filterMap_filterMap]
  refine List.filterMap_congr fun e _ => ?_
  by_cases h : e.kind = k <;> simp [Feed.elements, Option.guard, h]

theorem length_elementRows (k : ElementKind) (es : List Entity) :
    (elementRows k es).length = es.countP fun e => e.kind = k := by
  rw [elementRows, List.length_map, List.countP_eq_length_filter]

section

variable (options : LoadOptions) (faults : List Fault) (entities : List Entity)
  (h : (ingest options ({ faults, inner := {} } : Faulty Memory) entities).2.store.strikes = 0)
include h

theorem batchesOn_planned (t : Table) :
    (ingest options ({ faults, inner := {} } : Faulty Memory) entities).2.store.inner.batchesOn t =
      ((Plan.ofEntities options.thresholds.row
        (options.filter.admitted entities)).finish.on t).map Batch.rows := by
  rw [Memory.batchesOn, ingest_batches_planned options faults entities h, List.filter_map,
    List.map_map]
  rfl

theorem strikes_dispatched {before after : List Entity} (he : entities = before ++ after) :
    (before.foldl (Accumulator.dispatch options.filter)
      (Accumulator.fresh faults options.thresholds options.counterReset)).session.store.strikes =
      0 := by
  have hafter := (Accumulator.attended_dispatchAll Faulty.monitor options.filter after
    (before.foldl (Accumulator.dispatch options.filter)
      (Accumulator.fresh faults options.thresholds options.counterReset))).always.1
  rw [← List.foldl_append, ← he] at hafter
  have hend := (Accumulator.attended_finish Faulty.monitor
    (Accumulator.drained options ({ faults, inner := {} } : Faulty Memory) entities)).always.1
  rw [ingest_eq] at h
  dsimp only at h
  rw [h] at hend
  exact Nat.le_zero.1 (Nat.le_trans hafter hend)

/-- In the midst of the stream the buffers are those planned so far. -/
theorem buffers_planned {before after : List Entity} (he : entities = before ++ after) :
    (before.foldl (Accumulator.dispatch options.filter)
      (Accumulator.fresh faults options.thresholds options.counterReset)).buffers =
      (Plan.ofEntities options.thresholds.row (options.filter.admitted before)).buffers := by
  have hz := strikes_dispatched options faults entities h he
  have hplan := Accumulator.onPlan_drained options before
  have hstart : (Faulty.lockstep 0).apart ({ faults, inner := {} } : Faulty Memory)
      { inner := {} } := ⟨rfl, rfl⟩
  have hrun := Lockstep.tracks_drained _ options before hstart
  unfold Accumulator.drained at hrun hplan
  unfold Accumulator.fresh at hz ⊢
  generalize Accumulator.new ({ faults, inner := {} } : Faulty Memory) options.thresholds
    options.counterReset = a at hz hrun ⊢
  generalize before.foldl (Accumulator.dispatch options.filter) a = a at hz hrun ⊢
  have hab := hrun (Nat.not_lt.2 (Nat.le_of_eq hz))
  have hstrikes := congrArg (·.store.strikes) (Faulty.sessions_lockstep hab.session)
  exact hab.buffers_eq.symm.trans (hplan (hstrikes.trans hz)).2.1

end

/-- As long as no call is struck, batches are cut where a buffer is full. The batches of the
elements of a kind are the blocks of their rows, and those of the member lists the blocks of the
lists, each in the order of the ids, if no id comes twice. Every batch of users but the last is
full, and after every element all buffers have room for one entry more. -/
theorem ingest_cuts_batches (options : LoadOptions) (faults : List Fault) (entities : List Entity)
    (h : (ingest options ({ faults, inner := {} } : Faulty Memory) entities).2.store.strikes = 0) :
    let admitted := options.filter.admitted entities
    let r := max 1 options.thresholds.row
    let m := (ingest options ({ faults, inner := {} } : Faulty Memory) entities).2.store.inner
    (∀ k : ElementKind, let n := admitted.countP fun e => e.kind = k
      m.executions k.table =
        List.replicate (n / r) r ++ (if n % r = 0 then [] else [n % r]) ∧
      m.batchesOn k.table = blocks r (elementRows k admitted)) ∧
    (((wayLists admitted).map Prod.fst).Nodup → m.batchesOn .wayNodes =
      (blocks r (wayLists admitted)).map fun lists => (byId lists).flatMap wayListRows) ∧
    (((memberLists admitted).map Prod.fst).Nodup → m.batchesOn .relationMembers =
      (blocks r (memberLists admitted)).map fun lists => (byId lists).flatMap memberListRows) ∧
    (∀ rows ∈ (m.batchesOn .users).dropLast, rows.length = r) ∧
    ∀ (n : Nat) (t : Table), ((entities.take n).foldl (Accumulator.dispatch options.filter)
      (Accumulator.fresh faults options.thresholds options.counterReset)).buffered t < r := by
  have hm := batchesOn_planned options faults entities h
  have hb := fun n =>
    buffers_planned options faults entities h (List.take_append_drop n entities).symm
  dsimp only
  generalize (ingest options ({ faults, inner := {} } : Faulty Memory) entities).2.store.inner = m
    at hm ⊢
  refine ⟨fun k => ?_, fun hn => ?_, fun hn => ?_, fun rows hr => ?_, fun n t => ?_⟩
  · have hblocks := Plan.rows_on_finish (.elements k) options.thresholds.row
      (options.filter.admitted entities) trivial
    rw [filterMap_elements] at hblocks
    have hk := (hm k.table).trans (hblocks.trans (List.map_id _))
    refine ⟨?_, hk⟩
    rw [Memory.executions_eq, hk, length_blocks (by omega), length_elementRows]
  · exact (hm .wayNodes).trans (Plan.rows_on_finish (.ofLane .ways) _ _ hn)
  · exact (hm .relationMembers).trans (Plan.rows_on_finish (.ofLane .relations) _ _ hn)
  · have hshape := Plan.shaped_ofEntities options.thresholds.row (options.filter.admitted entities)
    rw [hm] at hr
    obtain ⟨x, hx, rfl⟩ := List.mem_map.1 (Plan.dropLast_on_finish _ .users hr)
    exact hshape.length_rows rfl hx
  · rw [Accumulator.buffered, hb n]
    exact (Plan.shaped_ofEntities _ _).spare List.not_mem_nil

def threeWays : List Entity :=
  [.way ⟨5, {}, .empty, [1, 2]⟩, .way ⟨3, {}, .empty, [4]⟩, .way ⟨8, {}, .empty, [6, 7]⟩]

/-- Buffers of two entries: the lists of the first two ways make up one batch, in the order of the
ids, and that of the third another. -/
theorem ingest_cuts_batches_ways :
    let options : LoadOptions := { thresholds := ⟨2, 10, 10⟩ }
    let s := (ingest options ({ faults := idleFaults, inner := {} } : Faulty Memory) threeWays).2
    s.store.strikes = 0 ∧ s.store.inner.executions .ways = [2, 1] ∧
      s.store.inner.batchesOn .wayNodes =
        (blocks 2 [(5, [1, 2]), (3, [4]), (8, [6, 7])]).map fun lists =>
          (byId lists).flatMap wayListRows := by
  obtain ⟨hk, hways, -⟩ := ingest_cuts_batches { thresholds := ⟨2, 10, 10⟩ } idleFaults threeWays
    (by decide +kernel)
  exact ⟨by decide +kernel, (hk .way).1.trans rfl, hways (by decide)⟩

end MapLoader
