import Mathlib.Data.List.Flatten
import MapLoader.Proofs.Load.Windows

/-! Lists of members are written as a whole or not at all. Whatever calls are struck, the rows
that are committed are those of whole lists, one after another, and the lists that are there for
one parent came in this order in the stream. -/

namespace MapLoader

def rowsOf (id : Int) (rows : List Row) : List Row :=
  rows.filter fun r => r.head? = some (.integer id)

/-- The rows are those of whole lists, and the lists with one id are some of those given, in the
order given. -/
def WholeLists {α : Type} (expand : Int × List α → List Row) (lists : List (Int × List α))
    (rows : List Row) : Prop :=
  ∃ kept : List (Int × List α), rows = kept.flatMap expand ∧ ∀ id,
    (kept.filter fun l => l.1 = id).Sublist (lists.filter fun l => l.1 = id) ∧
      rowsOf id rows = (kept.filter fun l => l.1 = id).flatMap expand

theorem head?_wayListRows {l : Int × List Int} {r : Row} (h : r ∈ wayListRows l) :
    r.head? = some (.integer l.1) := by
  obtain ⟨x, -, rfl⟩ := List.mem_map.1 h
  rfl

theorem head?_memberListRows {l : Int × List Member} {r : Row} (h : r ∈ memberListRows l) :
    r.head? = some (.integer l.1) := by
  obtain ⟨x, -, rfl⟩ := List.mem_map.1 h
  rfl

/-- Lists expand to rows of their own parent, so the rows of a parent are those of its lists. -/
theorem rowsOf_flatMap {α : Type} {expand : Int × List α → List Row}
    (h : ∀ l, ∀ r ∈ expand l, r.head? = some (.integer l.1)) (id : Int)
    (lists : List (Int × List α)) :
    rowsOf id (lists.flatMap expand) = (lists.filter fun l => l.1 = id).flatMap expand := by
  induction lists with
  | nil => rfl
  | cons l lists ih =>
    rw [List.flatMap_cons, rowsOf, List.filter_append, ← rowsOf, ← rowsOf, ih]
    by_cases hl : l.1 = id
    · have hall : rowsOf id (expand l) = expand l :=
        List.filter_eq_self.2 fun r hr => by simp [h l r hr, hl]
      rw [hall, List.filter_cons_of_pos (by simpa using hl), List.flatMap_cons]
    · have hnone : rowsOf id (expand l) = [] :=
        List.filter_eq_nil_iff.2 fun r hr => by simp [h l r hr, hl]
      rw [hnone, List.filter_cons_of_neg (by simpa using hl), List.nil_append]

namespace Lane

variable {α : Type} (L : Lane α)

/-- The batches executed on the table of the lane are groups of whole lists. With the lists that
wait they make up, for every id, some of the given lists in their order. -/
def Grouped (lists : List (Int × List α)) (batches : List (Table × List Row))
    (waiting : SortedMap Int (List α)) : Prop :=
  ∃ groups : List (List (Int × List α)),
    (batches.filter fun b => b.1 = L.table) =
        groups.map (fun g => (L.table, g.flatMap L.expand)) ∧
      ∀ id, ((groups.flatten ++ waiting.toList).filter fun l => l.1 = id).Sublist
        (lists.filter fun l => l.1 = id)

namespace Grouped

variable {L} {lists : List (Int × List α)} {batches : List (Table × List Row)}
  {waiting : SortedMap Int (List α)}

/-- A list that comes under an id takes the place of the one that waits, but not of those that
were executed. -/
theorem insert (h : L.Grouped lists batches waiting) (l : Int × List α) :
    L.Grouped (lists ++ [l]) batches (waiting.insert l.1 l.2) := by
  obtain ⟨groups, hb, hs⟩ := h
  refine ⟨groups, hb, fun id => ?_⟩
  have hid := hs id
  rw [List.filter_append, List.filter_append, SortedMap.filter_key_insert]
  rw [List.filter_append] at hid
  by_cases hl : id = l.1
  · have hnew : [l].filter (fun x => x.1 = id) = [l] := by simp [hl]
    rw [if_pos hl, hnew]
    exact ((List.sublist_append_left _ _).trans hid).append (.refl _)
  · have hold : [l].filter (fun x => x.1 = id) = [] := by simp [Ne.symm hl]
    rw [if_neg hl, hold, List.append_nil]
    exact hid

theorem flush (h : L.Grouped lists batches waiting) :
    L.Grouped lists (batches ++ [(L.table, waiting.toList.flatMap L.expand)]) .empty := by
  obtain ⟨groups, hb, hs⟩ := h
  exact ⟨groups ++ [waiting.toList], by simp [List.filter_append, hb], fun id => by
    simpa using hs id⟩

theorem flush_other (h : L.Grouped lists batches waiting) {t : Table} (ht : t ≠ L.table)
    (rows : List Row) : L.Grouped lists (batches ++ [(t, rows)]) waiting := by
  obtain ⟨groups, hb, hs⟩ := h
  exact ⟨groups, by simp [List.filter_append, hb, ht], hs⟩

/-- Whichever of the batches last, their rows are those of whole lists. -/
theorem wholeLists (h : L.Grouped lists batches waiting)
    (hhead : ∀ l, ∀ r ∈ L.expand l, r.head? = some (.integer l.1))
    {lasting : List (Table × List Row)} (hl : lasting.Sublist batches) :
    WholeLists L.expand lists (rowsFor L.table lasting) := by
  obtain ⟨groups, hb, hs⟩ := h
  have hsub := hl.filter fun b : Table × List Row => b.1 = L.table
  obtain ⟨kept, hk, hkb⟩ := List.sublist_map_iff.1 (hb ▸ hsub)
  have hrows : rowsFor L.table lasting = kept.flatten.flatMap L.expand := by
    calc rowsFor L.table lasting
      _ = (lasting.filter fun b => b.1 = L.table).flatMap Prod.snd :=
        rowsFor_eq_flatMap L.table lasting
      _ = kept.flatMap (fun g => g.flatMap L.expand) := by rw [hkb, List.flatMap_map]
      _ = kept.flatten.flatMap L.expand := by
        rw [List.flatten_eq_flatMap, List.flatMap_assoc]
        rfl
  refine ⟨kept.flatten, hrows, fun id => ⟨?_, hrows ▸ rowsOf_flatMap hhead id kept.flatten⟩⟩
  have hkept : kept.flatten.Sublist (groups.flatten ++ waiting.toList) :=
    hk.flatten.trans (List.sublist_append_left _ _)
  exact (hkept.filter _).trans (hs id)

end Grouped

end Lane

theorem Account.Fair.exists_lasting {a : Account} (h : a.Fair) :
    ∃ lasting : List (Table × List Row), lasting.Sublist a.batches ∧
      ∀ t, a.committed t = rowsFor t lasting := by
  refine ⟨(a.history.reverse.filter Transaction.committed).flatMap Transaction.batches,
    List.filter_sublist.flatMap _, fun t => ?_⟩
  rw [h.committed t, rowsFor, List.flatMap_assoc]
  rfl

namespace Accumulator

variable {α : Type} {L : Lane α} {es : List Entity} {a : FaultyAccumulator}

/-- The lists of the elements that were added were executed in groups, or wait. -/
def KeepsLists (L : Lane α) (es : List Entity) (a : FaultyAccumulator) : Prop :=
  ∃ A, a.session.Keeps [.executeKeep] A ∧ A.Fair ∧
    L.Grouped (es.filterMap L.list?) A.batches (L.waiting a.buffers)

theorem KeepsLists.flush (h : KeepsLists L es a) (t : Table) : KeepsLists L es (a.flush t).2 := by
  by_cases ht : a.buffered t = 0
  · rw [flush_empty ht]
    exact h
  · obtain ⟨A, hA, hfair, hg⟩ := h
    obtain ⟨⟨B, hB, he⟩, -⟩ := keeps_flush hA (by simp) ht
    refine ⟨B, hB, Account.lasting_fair.flushed hfair he, ?_⟩
    rw [he.batches_eq, (flush_frame t a ht).1]
    -- A batch that failed is retained, and one that was executed leaves nothing behind.
    by_cases hf : (a.flush t).1 = .failed
    · rw [if_neg (not_not_intro hf), if_pos hf, List.append_nil]
      exact hg
    · rw [if_pos hf, if_neg hf, L.waiting_clear, Batch.entry, Buffers.table_batch]
      by_cases htL : t = L.table
      · rw [if_pos htL, htL, L.rows_batch]
        exact hg.flush
      · rw [if_neg htL]
        exact hg.flush_other htL _

theorem invariant_keepsLists (L : Lane α) : Invariant fun _ es a => KeepsLists L es a where
  author u h := by
    obtain ⟨A, hA, hfair, hg⟩ := h
    exact ⟨A, hA, hfair, by rw [author, L.waiting_addUser]; exact hg⟩
  element e h := by
    obtain ⟨A, hA, hfair, hg⟩ := h
    refine ⟨A, hA, hfair, ?_⟩
    rw [element, L.waiting_addElement, List.filterMap_append]
    cases hl : L.list? e with
    | none => simpa [hl] using hg
    | some l => simpa [hl] using hg.insert l
  flush t h := h.flush t

theorem KeepsLists.finish (h : KeepsLists L es a) : KeepsLists L es a.finish.2 := by
  obtain ⟨A, hA, hfair, hg⟩ : KeepsLists L es a.flushAll :=
    @Invariant.flushes _ _ _ _ (invariant_keepsLists L) [] _ _ Table.all h
  obtain ⟨B, o, he, hB, hb, -⟩ := keeps_finish hA
  refine ⟨B, hB, Account.lasting_fair.ends hfair he, ?_⟩
  rw [hb, (Account.steady_batches _).ends rfl he]
  exact hg

theorem KeepsLists.committed (h : KeepsLists L es a)
    (hhead : ∀ l, ∀ r ∈ L.expand l, r.head? = some (.integer l.1)) :
    WholeLists L.expand (es.filterMap L.list?)
      (a.session.store.inner.committed.get L.table).toList := by
  obtain ⟨A, hA, hfair, hg⟩ := h
  obtain ⟨lasting, hl, hc⟩ := hfair.exists_lasting
  rw [hA.committed_eq, hc L.table]
  exact hg.wholeLists hhead hl

theorem keepsLists_drained (L : Lane α) (options : LoadOptions) {faults : List Fault}
    (hf : Fault.Conforming faults) (entities : List Entity) :
    KeepsLists L (options.filter.admitted entities)
      (drained options { faults, inner := {} } entities) := by
  refine (invariant_keepsLists L).drained (fun _ _ _ _ h => h) ?tell ?new entities
  case tell =>
    intro us es a n h
    obtain ⟨A, hA, hfair, hg⟩ := h
    exact ⟨A, hA.tell n, hfair, hg⟩
  case new =>
    refine ⟨⟨{}, []⟩, Session.keeps_conforming hf, Account.fair_empty, [], rfl, fun id => ?_⟩
    rw [show L.waiting (new (κ := Faulty.Connection Memory.Connection)
      ({ faults, inner := {} } : Faulty Memory) options.thresholds options.counterReset).buffers =
        .empty from L.waiting_empty]
    exact .refl _

end Accumulator

/-- Under any faults that drop the batches they strike, and whether or not a load succeeds: the
committed rows of a way are those of whole node lists, which came for this way in this order, and
the committed rows of a relation are those of whole member lists in the same manner. -/
theorem ingest_commits_whole_lists (options : LoadOptions) (faults : List Fault)
    (hf : Fault.Conforming faults) (entities : List Entity) :
    let admitted := options.filter.admitted entities
    let s := (ingest options ({ faults, inner := {} } : Faulty Memory) entities).2
    WholeLists wayListRows (wayLists admitted)
        (s.store.inner.committed.get .wayNodes).toList ∧
      WholeLists memberListRows (memberLists admitted)
        (s.store.inner.committed.get .relationMembers).toList := by
  have hw := (Accumulator.keepsLists_drained .ways options hf entities).finish
  have hr := (Accumulator.keepsLists_drained .relations options hf entities).finish
  dsimp only
  rw [ingest_eq]
  generalize (Accumulator.drained options ({ faults, inner := {} } : Faulty Memory)
    entities).finish = x at hw hr ⊢
  exact ⟨hw.committed fun _ _ => head?_wayListRows, hr.committed fun _ _ => head?_memberListRows⟩

def listFaults : List Fault :=
  [{ point := .addRow, table := some "way_nodes", skip := 1, times := some 1 },
    { point := .commit, table := some "way_nodes", skip := 1, times := some 1 }]

def threeVersions : List Entity :=
  twoVersions ++ [.way ⟨1, { version := 3 }, .empty, [6, 7]⟩]

theorem ingest_commits_whole_lists_versions :
    Fault.Conforming listFaults ∧
      let s := (ingest tightOptions ({ faults := listFaults, inner := {} } : Faulty Memory)
        threeVersions).2
      WholeLists wayListRows (wayLists (tightOptions.filter.admitted threeVersions))
          (s.store.inner.committed.get .wayNodes).toList ∧
        WholeLists memberListRows (memberLists (tightOptions.filter.admitted threeVersions))
          (s.store.inner.committed.get .relationMembers).toList :=
  have hf : Fault.Conforming listFaults := by
    unfold Fault.Conforming
    decide
  ⟨hf, ingest_commits_whole_lists tightOptions listFaults hf threeVersions⟩

end MapLoader
