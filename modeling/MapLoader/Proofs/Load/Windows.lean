import Mathlib.Algebra.GroupWithZero.Nat
import MapLoader.Proofs.Load.Plan

/-! Which lists of members are written. They wait by the id of their parent until as many wait as
fill a buffer, and a list that comes while another one waits under its id takes the place of that
one. So a load without faults writes every list whole, but for those that are replaced; and only
a list whose id comes again can be replaced. -/

namespace MapLoader

open scoped List

structure Window (α : Type) where
  written : List (Int × List α) := []
  waiting : SortedMap Int (List α) := .empty
  replaced : List (Int × List α) := []

namespace Window

variable {α : Type} {expand : Int × List α → List Row}

def put (l : Int × List α) (w : Window α) : Window α where
  written := w.written
  waiting := w.waiting.insert l.1 l.2
  replaced := w.replaced ++ w.waiting.toList.filter fun e => e.1 = l.1

def settle (w : Window α) : Window α :=
  { w with written := w.written ++ w.waiting.toList, waiting := .empty }

def take (row : Nat) (w : Window α) (l : Int × List α) : Window α :=
  if row ≤ (w.put l).waiting.size then (w.put l).settle else w.put l

def ofLists (row : Nat) (lists : List (Int × List α)) : Window α := lists.foldl (take row) {}

def lasting (w : Window α) : List (Int × List α) := w.written ++ w.waiting.toList

/-- A window over these lists loses none of them, and replaces a list only if its id comes
again. -/
structure Holds (lists : List (Int × List α)) (w : Window α) : Prop where
  perm : w.written ++ w.replaced ++ w.waiting.toList ~ lists
  repeated : ∀ l ∈ w.replaced, 2 ≤ (lists.map Prod.fst).count l.1

theorem Holds.put {lists : List (Int × List α)} {w : Window α} (h : Holds lists w)
    (l : Int × List α) : Holds (lists ++ [l]) (w.put l) := by
  refine ⟨?_, fun x hx => ?_⟩
  · calc (w.put l).written ++ (w.put l).replaced ++ (w.put l).waiting.toList
      _ = w.written ++ w.replaced ++ (w.waiting.toList.filter (fun e => e.1 = l.1) ++
          (w.waiting.insert l.1 l.2).toList) := by simp [Window.put]
      _ ~ w.written ++ w.replaced ++ l :: w.waiting.toList :=
        (SortedMap.perm_insert_replaced w.waiting l.1 l.2).append_left _
      _ ~ l :: (w.written ++ w.replaced ++ w.waiting.toList) := List.perm_middle
      _ ~ l :: lists := h.perm.cons l
      _ ~ lists ++ [l] := (List.perm_append_singleton l lists).symm
  · rw [List.map_append, List.count_append]
    rcases List.mem_append.1 hx with hx | hx
    · exact Nat.le_add_right_of_le (h.repeated x hx)
    · -- The list waited until the new one came under its id.
      obtain ⟨hw, hid⟩ := List.mem_filter.1 hx
      have hid : x.1 = l.1 := of_decide_eq_true hid
      have hm : x ∈ lists :=
        h.perm.mem_iff.1 (List.mem_append_right _ hw)
      have hpos := List.count_pos_iff.2 (List.mem_map_of_mem (f := Prod.fst) hm)
      simp only [List.map_cons, List.map_nil, hid, List.count_singleton_self] at hpos ⊢
      omega

theorem Holds.settle {lists : List (Int × List α)} {w : Window α} (h : Holds lists w) :
    Holds lists w.settle := by
  refine ⟨?_, h.repeated⟩
  calc w.settle.written ++ w.settle.replaced ++ w.settle.waiting.toList
    _ = w.written ++ (w.waiting.toList ++ w.replaced) := by simp [Window.settle]
    _ ~ w.written ++ (w.replaced ++ w.waiting.toList) := List.perm_append_comm.append_left _
    _ = w.written ++ w.replaced ++ w.waiting.toList := (List.append_assoc _ _ _).symm
    _ ~ lists := h.perm

theorem Holds.take {lists : List (Int × List α)} {w : Window α} (h : Holds lists w) (row : Nat)
    (l : Int × List α) : Holds (lists ++ [l]) (w.take row l) := by
  unfold Window.take
  split
  · exact (h.put l).settle
  · exact h.put l

theorem holds_ofLists (row : Nat) (lists : List (Int × List α)) :
    Holds lists (ofLists row lists) := by
  have hfold (past : List (Int × List α)) (w : Window α) (h : Holds past w) :
      Holds (past ++ lists) (lists.foldl (Window.take row) w) := by
    induction lists generalizing past w with
    | nil => simpa using h
    | cons l lists ih => simpa using ih _ _ (h.take row l)
  exact hfold [] {} ⟨.refl _, nofun⟩

end Window

/-- A table of member lists: how lists wait for it, which list an element brings, and to which
rows a list expands. -/
structure Lane (α : Type) where
  table : Table
  waiting : Buffers → SortedMap Int (List α)
  list? : Entity → Option (Int × List α)
  expand : Int × List α → List Row
  waiting_empty : waiting {} = .empty
  waiting_clear (b : Buffers) (t : Table) :
    waiting (b.clear t) = if t = table then .empty else waiting b
  waiting_addUser (b : Buffers) (u : User) : waiting (b.addUser u) = waiting b
  waiting_addElement (b : Buffers) (e : Entity) : waiting (b.addElement e) =
    (list? e).elim (waiting b) fun l => (waiting b).insert l.1 l.2
  size_eq (b : Buffers) : b.size table = (waiting b).size
  rows_batch (b : Buffers) : (b.batch table).rows = (waiting b).toList.flatMap expand
  length_expand (l : Int × List α) : (expand l).length = l.2.length
  ne_users : Table.users ≠ table
  /-- The buffer of the lists is the last that an element with a list may fill. -/
  tables (e : Entity) : match list? e with
    | none => table ∉ e.tables
    | some _ => ∃ t, t ≠ table ∧ e.tables = [t, table]

namespace Lane

def ways : Lane Int where
  table := .wayNodes
  waiting := Buffers.wayNodes
  list?
    | .way w => some (w.id, w.nodeRefs)
    | _ => none
  expand := wayListRows
  waiting_empty := rfl
  waiting_clear b t := by cases t <;> rfl
  waiting_addUser b u := by
    unfold Buffers.addUser
    split <;> rfl
  waiting_addElement b e := by cases e <;> rfl
  size_eq b := rfl
  rows_batch := Buffers.rows_batch_wayNodes
  length_expand := length_wayListRows
  ne_users := nofun
  tables e := by
    cases e with
    | way w => exact ⟨.ways, nofun, rfl⟩
    | node | relation => simp [Entity.tables]

def relations : Lane Member where
  table := .relationMembers
  waiting := Buffers.relationMembers
  list?
    | .relation r => some (r.id, r.members)
    | _ => none
  expand := memberListRows
  waiting_empty := rfl
  waiting_clear b t := by cases t <;> rfl
  waiting_addUser b u := by
    unfold Buffers.addUser
    split <;> rfl
  waiting_addElement b e := by cases e <;> rfl
  size_eq b := rfl
  rows_batch := Buffers.rows_batch_relationMembers
  length_expand := length_memberListRows
  ne_users := nofun
  tables e := by
    cases e with
    | relation r => exact ⟨.relations, nofun, rfl⟩
    | node | way => simp [Entity.tables]

end Lane

namespace Plan

variable {α : Type} {L : Lane α} {w : Window α} {p : Plan} {row : Nat}

/-- The lists of a table wait and were written as the window says. -/
structure Fills (L : Lane α) (w : Window α) (p : Plan) : Prop where
  waiting : L.waiting p.buffers = w.waiting
  rows : p.rows L.table = w.written.flatMap L.expand

theorem Fills.flush_other (h : Fills L w p) {t : Table} (ht : t ≠ L.table) :
    Fills L w (p.flush t) := by
  refine ⟨?_, by rw [rows_flush, if_neg ht, List.append_nil, h.rows]⟩
  unfold flush
  split
  · exact h.waiting
  · rw [L.waiting_clear, if_neg ht, h.waiting]

theorem Fills.flush (h : Fills L w p) : Fills L w.settle (p.flush L.table) := by
  refine ⟨?_, ?_⟩
  · unfold Plan.flush
    split
    · rename_i hz
      exact SortedMap.eq_empty ((L.size_eq p.buffers).symm.trans hz)
    · rw [L.waiting_clear, if_pos rfl]
      rfl
  · rw [rows_flush, if_pos rfl, h.rows, L.rows_batch, h.waiting, ← List.flatMap_append]
    rfl

theorem Fills.flushIfFull_other (h : Fills L w p) {t : Table} (ht : t ≠ L.table) :
    Fills L w (p.flushIfFull row t) := by
  unfold Plan.flushIfFull
  split
  · exact h.flush_other ht
  · exact h

theorem Fills.flushIfFull (h : Fills L w p) :
    Fills L (if row ≤ w.waiting.size then w.settle else w) (p.flushIfFull row L.table) := by
  unfold Plan.flushIfFull
  rw [L.size_eq, h.waiting]
  split
  · exact h.flush
  · exact h

theorem Fills.addUser (h : Fills L w p) (row : Nat) (u : User) :
    Fills L w (p.addUser row u) := by
  unfold Plan.addUser
  split
  · exact h
  · have hb : Fills L w { p with buffers := p.buffers.addUser u } :=
      ⟨(L.waiting_addUser p.buffers u).trans h.waiting, h.rows⟩
    exact hb.flushIfFull_other L.ne_users

theorem Fills.foldl_flushIfFull (h : Fills L w p) {ts : List Table} (ht : L.table ∉ ts) :
    Fills L w (ts.foldl (fun p t => p.flushIfFull row t) p) := by
  induction ts generalizing p with
  | nil => exact h
  | cons t ts ih =>
    have hne : t ≠ L.table := fun he => ht (he ▸ List.mem_cons_self)
    exact ih (h.flushIfFull_other hne) fun hm => ht (List.mem_cons_of_mem t hm)

/-- The list of an element goes to the window, if it brings one. -/
theorem Fills.add (h : Fills L w p) (row : Nat) (e : Entity) :
    Fills L ((L.list? e).elim w (w.take row)) (p.add row e) := by
  have ht := L.tables e
  have hb := L.waiting_addElement (p.addUser row e.user).buffers e
  have hu := h.addUser row e.user
  rw [hu.waiting] at hb
  unfold Plan.add
  cases hl : L.list? e with
  | none =>
    rw [hl] at ht hb
    have hs : Fills L w (p.stage row e) := ⟨hb, hu.rows⟩
    exact hs.foldl_flushIfFull ht
  | some l =>
    rw [hl] at ht hb
    obtain ⟨t, hne, htables⟩ := ht
    have hs : Fills L (w.put l) (p.stage row e) := ⟨hb, hu.rows⟩
    rw [htables]
    exact (hs.flushIfFull_other hne).flushIfFull

theorem fills_ofEntities (L : Lane α) (row : Nat) (es : List Entity) :
    Fills L (Window.ofLists row (es.filterMap L.list?)) (ofEntities row es) := by
  have hfold (w : Window α) (p : Plan) (h : Fills L w p) :
      Fills L ((es.filterMap L.list?).foldl (Window.take row) w) (es.foldl (add row) p) := by
    induction es generalizing w p with
    | nil => exact h
    | cons e es ih =>
      have ha := ih _ _ (h.add row e)
      cases hl : L.list? e <;> simpa [List.filterMap_cons, hl] using ha
  exact hfold {} {} ⟨L.waiting_empty, rfl⟩

theorem rows_finish_ofEntities (L : Lane α) (row : Nat) (es : List Entity) :
    (ofEntities row es).finish.rows L.table =
      (Window.ofLists row (es.filterMap L.list?)).lasting.flatMap L.expand := by
  have h := fills_ofEntities L row es
  rw [rows_finish, h.rows, L.rows_batch, h.waiting, ← List.flatMap_append]
  rfl

end Plan

/-- The rows are those of the lists that last. Every other list was replaced, which happens only
to a list whose id comes more than once, and each takes its rows with it; if none was replaced,
all lists are there as a whole. -/
structure ListsKept {α : Type} (expand : Int × List α → List Row) (lists : List (Int × List α))
    (w : Window α) (rows : List Row) : Prop where
  rows_eq : rows = w.lasting.flatMap expand
  perm : w.lasting ++ w.replaced ~ lists
  repeated : ∀ l ∈ w.replaced, 2 ≤ (lists.map Prod.fst).count l.1
  length_eq : rows.length + (w.replaced.map fun l => l.2.length).sum =
    (lists.map fun l => l.2.length).sum
  whole : w.replaced = [] → (∀ l ∈ lists, ∀ r ∈ expand l, r ∈ rows) ∧
    rows.length = (lists.map fun l => l.2.length).sum

theorem Lane.listsKept {α : Type} (L : Lane α) {lists : List (Int × List α)} {w : Window α}
    (h : Window.Holds lists w) : ListsKept L.expand lists w (w.lasting.flatMap L.expand) := by
  have hp : w.lasting ++ w.replaced ~ lists := by
    simpa [Window.settle, Window.lasting] using h.settle.perm
  have hexpand : (w.lasting.flatMap L.expand).length = (w.lasting.map fun l => l.2.length).sum := by
    simp only [List.length_flatMap, L.length_expand]
  have hlen : (w.lasting.flatMap L.expand).length + (w.replaced.map fun l => l.2.length).sum =
      (lists.map fun l => l.2.length).sum := by
    rw [hexpand, ← List.sum_append, ← List.map_append]
    exact (hp.map _).sum_nat
  refine ⟨rfl, hp, h.repeated, hlen, fun hr => ?_⟩
  rw [hr] at hp hlen
  have hall (l : Int × List α) (hl : l ∈ lists) : l ∈ w.lasting := by
    simpa using hp.mem_iff.2 hl
  exact ⟨fun l hl r hm => List.mem_flatMap.2 ⟨l, hall l hl, hm⟩, hlen⟩

/-- A load that is not struck by any fault writes every list of members whole, but for those that
are replaced while they wait. -/
theorem ingest_keeps_lists (options : LoadOptions) (faults : List Fault) (entities : List Entity)
    (h : (ingest options ({ faults, inner := {} } : Faulty Memory) entities).2.store.strikes = 0) :
    let admitted := options.filter.admitted entities
    let row := options.thresholds.row
    let s := (ingest options ({ faults, inner := {} } : Faulty Memory) entities).2
    ListsKept wayListRows (wayLists admitted) (.ofLists row (wayLists admitted))
        (s.store.inner.committed.get .wayNodes).toList ∧
      ListsKept memberListRows (memberLists admitted) (.ofLists row (memberLists admitted))
        (s.store.inner.committed.get .relationMembers).toList := by
  have hp := ingest_planned options faults entities h
  dsimp only
  rw [hp, hp]
  generalize options.filter.admitted entities = es
  generalize options.thresholds.row = row
  have hw := Plan.rows_finish_ofEntities .ways row es
  have hr := Plan.rows_finish_ofEntities .relations row es
  exact ⟨hw ▸ Lane.ways.listsKept (Window.holds_ofLists row _),
    hr ▸ Lane.relations.listsKept (Window.holds_ofLists row _)⟩

def twoVersions : List Entity :=
  [.way ⟨1, { version := 1 }, .empty, [1, 2, 3]⟩, .way ⟨1, { version := 2 }, .empty, [4, 5]⟩]

/-- If every list is written as soon as it comes, both versions keep theirs. -/
theorem ingest_keeps_lists_versions :
    (ingest tightOptions ({ inner := {} } : Faulty Memory) twoVersions).2.store.strikes = 0 ∧
      (Window.ofLists 1 (wayLists twoVersions)).replaced = [] ∧
      let s := (ingest tightOptions ({ inner := {} } : Faulty Memory) twoVersions).2
      (∀ l ∈ wayLists twoVersions, ∀ r ∈ wayListRows l,
        r ∈ (s.store.inner.committed.get .wayNodes).toList) ∧
      (s.store.inner.committed.get .wayNodes).toList.length = 5 :=
  have h := (ingest_keeps_lists tightOptions [] twoVersions rfl).1.whole rfl
  ⟨rfl, rfl, h.1, h.2⟩

/-- When both versions wait together, the rows of the first are missing, although both are in
their table. -/
theorem replaced_list_is_lost : ¬ ∀ (options : LoadOptions) (entities : List Entity),
    let admitted := options.filter.admitted entities
    let s := (ingest options ({ inner := {} } : Faulty Memory) entities).2
    s.store.strikes = 0 → ∀ w : Way, .way w ∈ admitted →
      (Entity.way w).row ∈ (s.store.inner.committed.get .ways).toList →
      ∀ r ∈ wayListRows (w.id, w.nodeRefs), r ∈ (s.store.inner.committed.get .wayNodes).toList := by
  intro h
  have hmem := h {} twoVersions rfl ⟨1, { version := 1 }, .empty, [1, 2, 3]⟩
    (by decide +kernel) (by decide +kernel) [.integer 1, .integer 1, .integer 0] (by decide +kernel)
  revert hmem
  decide +kernel

end MapLoader
