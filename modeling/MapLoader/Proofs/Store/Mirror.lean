import MapLoader.Proofs.Database.Fit
import MapLoader.Proofs.Store.DatabaseFile
import MapLoader.Proofs.Store.Transactions
import MapLoader.Proofs.Store.Twins

/-! A database file and a store in memory are in lockstep for the rows that a session builds: no
row breaks a rule of the database, and after the same calls both have got the same rows. -/

namespace MapLoader

theorem Database.table?_fresh (t : Table) : fresh.table? t.name = some t.stored := by
  cases t <;> decide +kernel

/-- A database that had the six tables, with any rows, and has come to hold these rows besides,
and nothing else. All of them fit their tables. -/
structure Database.Mirrors (origin : Database) (rows : Table → List Row) (d : Database) : Prop where
  ready : origin.Ready
  grown : ∃ batches, Grown origin batches d ∧ ∀ t, rowsFor t batches = rows t
  fits (t : Table) : ∀ r ∈ rows t, Row.Fits t.schema r

namespace Database.Mirrors

variable {rows rows' : Table → List Row} {origin d v : Database} {t : Table} {rs : List Row}

theorem start (h : origin.Ready) : Mirrors origin (fun _ => []) origin where
  ready := h
  grown := ⟨[], .refl _, fun _ => rfl⟩
  fits _ _ h := nomatch h

theorem empty : Mirrors .fresh (fun _ => []) .fresh := start fun t => ⟨#[], table?_fresh t⟩

theorem table? (h : Mirrors origin rows d) (t : Table) :
    d.table? t.name = some (StoredTable.extend t.columns (rows t)
      { t.stored with rows := (origin.held t).toArray }) := by
  obtain ⟨batches, hg, hrows⟩ := h.grown
  obtain ⟨old, hold⟩ := h.ready t
  rw [hg.table? t, hold, hrows t]
  simp [held, Database.rows?, hold]

/-- Rows that fit are never refused. -/
theorem takes (h : Mirrors origin rows d) (hr : ∀ r ∈ rs, Row.Fits t.schema r) :
    d.Takes t rs := by
  have hcolumns : missing? (StoredTable.extend t.columns (rows t)
      { t.stored with rows := (origin.held t).toArray }) t.columns = none := by
    have hstored : missing? t.stored t.columns = none := by cases t <;> decide +kernel
    exact hstored
  exact ⟨_, target_eq_ok_iff.2 ⟨h.table? t, hcolumns⟩, fun r hmem =>
    StoredTable.admits_extend.2 (Table.admits_stored (hr r hmem))⟩

theorem insertRows (h : Mirrors origin rows d) (hr : ∀ r ∈ rs, Row.Fits t.schema r)
    (hi : d.insertRows t rs = (.ok (), v))
    (hrows : ∀ u, rows' u = rows u ++ if t = u then rs else []) : Mirrors origin rows' v := by
  obtain ⟨batches, hg, hb⟩ := h.grown
  refine ⟨h.ready, ⟨_, hg.insertRows hi, fun u => ?_⟩, fun u r hmem => ?_⟩
  · rw [hrows, rowsFor_append, rowsFor_singleton, hb]
  · rw [hrows] at hmem
    rcases List.mem_append.1 hmem with hmem | hmem
    · exact h.fits u r hmem
    · split at hmem
      · rename_i htu
        exact htu ▸ hr r hmem
      · cases hmem

/-- The rows that were there are followed by the new rows themselves, with every point as text. -/
theorem rows_eq (h : Mirrors origin rows d) (t : Table) :
    d.rows? t.name = some (origin.held t ++ (rows t).map (List.map Value.cell)).toArray := by
  have hcells : (rows t).map (t.stored.cells t.columns) = (rows t).map (List.map Value.cell) :=
    List.map_congr_left fun r hmem => Table.cells_stored (h.fits t r hmem)
  unfold Database.rows?
  rw [h.table? t, ← hcells]
  simp [StoredTable.extend, StoredTable.cells]

/-- In a database made afresh the stored rows are all there are. -/
theorem rows? (h : Mirrors .fresh rows d) (t : Table) :
    d.rows? t.name = some ((rows t).map (List.map Value.cell)).toArray := by
  have hnone : fresh.held t = [] := by simp [held, Database.rows?, table?_fresh, Table.stored]
  rw [h.rows_eq t, hnone, List.nil_append]

end Database.Mirrors

namespace Memory

/-- The committed rows of each table. -/
def rows (m : Memory) (t : Table) : List Row := (m.committed.get t).toList

theorem rows_fresh : ({} : Memory).rows = fun _ => [] := funext fun t => by cases t <;> rfl

/-- The rows of each table as an open transaction sees them. -/
def Connection.rows (c : Connection) (m : Memory) (t : Table) : List Row :=
  ((c.uncommitted.foldl insertRow m.committed).get t).toList

theorem Connection.rows_eq (c : Connection) (m : Memory) (t : Table) : c.rows m t =
    m.rows t ++ c.uncommitted.toList.flatMap fun r => if r.1 = t then [r.2] else [] := by
  unfold Connection.rows
  rw [← Array.foldl_toList]
  exact get_foldl_insertRow _ _ t

/-- Executing adds the gathered rows to the end of their table. -/
theorem Connection.rows_executed (m : Memory) (t : Table) (pending : Array Row) (c : Connection)
    (u : Table) : Connection.rows { c with
        pending := #[], uncommitted := c.uncommitted ++ pending.map fun r => (t, r) }
        (m.note (.executed t pending)) u =
      c.rows m u ++ if t = u then pending.toList else [] := by
  have hadded : (pending.toList.map fun r => (t, r)).flatMap
      (fun r => if r.1 = u then [r.2] else []) = if t = u then pending.toList else [] := by
    rw [List.flatMap_map]
    by_cases h : t = u <;> simp [h]
  rw [Connection.rows_eq, Connection.rows_eq, Array.toList_append, Array.toList_map,
    List.flatMap_append, hadded, List.append_assoc]
  rfl

end Memory

namespace DatabaseFile

/-- The file has got the rows that the store in memory has committed. -/
def Apart (l : Location) (origin : Database) (s : DatabaseFile) (m : Memory) : Prop :=
  m.Calm ∧ ∃ d, s.Holds l d ∧ origin.Mirrors m.rows d

/-- And two connections see the same new rows. -/
def Linked (l : Location) (origin : Database) (c : Connection) (k : Memory.Connection)
    (s : DatabaseFile) (m : Memory) : Prop :=
  c.location = some l ∧ m.Calm ∧
    ∃ d, s.Holds l d ∧ origin.Mirrors m.rows d ∧ origin.Mirrors (k.rows m) (c.inner.view d)

/-- And they have gathered the same rows for the same table. -/
structure Prepared (l : Location) (origin : Database) (t : Table) (c : Connection)
    (k : Memory.Connection) (s : DatabaseFile) (m : Memory) : Prop where
  linked : Linked l origin c k s m
  statement : c.inner.statement = some t
  statement' : k.statement = some t
  pending : k.pending = c.inner.pending
  fits : ∀ r ∈ c.inner.pending.toList, Row.Fits t.schema r

variable {l : Location} {origin : Database} {s : DatabaseFile} {m : Memory} {c : Connection}
  {k : Memory.Connection} {t : Table}

theorem Linked.apart (h : Linked l origin c k s m) : Apart l origin s m := by
  obtain ⟨-, hm, d, hs, hd, -⟩ := h
  exact ⟨hm, d, hs, hd⟩

theorem connect_linked (h : Apart l origin s m) : ∃ c k m', Store.connect s = (.ok c, s) ∧
    Store.connect m = (.ok k, m') ∧ Linked l origin c k s m' := by
  obtain ⟨hm, d, hs, hd⟩ := h
  exact ⟨_, _, _, hs.connect, Memory.connect_calm hm, rfl, hm, d, hs, hd, hd⟩

theorem prepare_prepared (h : Linked l origin c k s m) (t : Table) : ∃ c' k' m',
    Store.prepare t c s = (.ok (), c', s) ∧ Store.prepare t k m = (.ok (), k', m') ∧
      Prepared l origin t c' k' s m' := by
  obtain ⟨hc, hm, d, hs, hd, hv⟩ := h
  have htakes : (c.inner.view d).Takes t [] := hv.takes (List.forall_mem_nil _)
  obtain ⟨u, hu, -⟩ := htakes
  have hp : Store.prepare t c s = (.ok (),
      { c with inner := { c.inner with statement := some t, pending := #[] } }, s) := by
    refine (hs.observe hc).trans ?_
    simp [Database.prepare, hu]
  exact ⟨_, _, _, hp, rfl, ⟨hc, hm, d, hs, hd, hv⟩, rfl, rfl, rfl, List.forall_mem_nil _⟩

theorem addRow_prepared (h : Prepared l origin t c k s m) {r : Row} (hr : Row.Fits t.schema r)
    (ha : r.length = t.arity) : ∃ c' k', Store.addRow r c s = (.ok (), c', s) ∧
      Store.addRow r k m = (.ok (), k', m) ∧ Prepared l origin t c' k' s m := by
  obtain ⟨⟨hc, hm, d, hs, hd, hv⟩, hst, hst', hpending, hfits⟩ := h
  have hrow : Store.addRow r c s = (.ok (),
      { c with inner := { c.inner with pending := c.inner.pending.push r } }, s) := by
    refine (hs.observe hc).trans ?_
    simp [Database.addRow, hst, ha]
  have hrow' : Store.addRow r k m = (.ok (), { k with pending := k.pending.push r }, m) := by
    simp [Store.addRow, Memory.addRow, hst', ha]
  refine ⟨_, _, hrow, hrow', ⟨hc, hm, d, hs, hd, hv⟩, hst, hst', by simp [hpending], ?_⟩
  simp only [Array.toList_push, List.mem_append, List.mem_singleton]
  rintro x (hx | rfl)
  · exact hfits x hx
  · exact hr

theorem execute_prepared (h : Prepared l origin t c k s m) : ∃ c' k' m',
    Store.execute c s = (.ok c.inner.pending.size, c', s) ∧
      Store.execute k m = (.ok c.inner.pending.size, k', m') ∧ Prepared l origin t c' k' s m' := by
  obtain ⟨⟨hc, hm, d, hs, hd, hv⟩, hst, hst', hpending, hfits⟩ := h
  obtain ⟨u, v, hu, hi, he⟩ | ⟨e, w, hn, -⟩ := Database.execute_cases c.inner d
  · obtain rfl : t = u := Option.some.inj (hst.symm.trans hu)
    have hx : Store.execute c s = (.ok c.inner.pending.size, { c with inner := { c.inner with
        pending := #[], transaction := some { c.inner.draft d with current := v } } }, s) := by
      refine (hs.observe hc).trans ?_
      have hinner : Database.execute c.inner d = Store.execute c.inner d := rfl
      rw [hinner, he]
    have hx' := Memory.execute_calm hm hst'
    rw [hpending] at hx'
    have hseen := hv.insertRows hfits hi (Memory.Connection.rows_executed m t c.inner.pending k)
    exact ⟨_, _, _, hx, hx', ⟨hc, hm, d, hs, hd, hseen⟩, hst, hst', rfl, List.forall_mem_nil _⟩
  -- the gathered rows fit, so the database cannot refuse them
  · exact absurd (hv.takes hfits) (hn t hst)

theorem commit_prepared (h : Prepared l origin t c k s m) : ∃ c' s' k' m',
    Store.commit c s = (.ok (), c', s') ∧ Store.commit k m = (.ok (), k', m') ∧
      Prepared l origin t c' k' s' m' := by
  obtain ⟨⟨hc, hm, d, hs, hd, hv⟩, hst, hst', hpending, hfits⟩ := h
  obtain ⟨s', hs', hholds⟩ := hs.commit hc
  refine ⟨_, s', _, _, hs', Memory.commit_calm hm k, ?_, hst, hst', hpending, hfits⟩
  exact ⟨hc, hm, _, hholds, hv, hv⟩

theorem rollback_prepared (h : Prepared l origin t c k s m) : ∃ c' k' m',
    Store.rollback c s = (.ok (), c', s) ∧ Store.rollback k m = (.ok (), k', m') ∧
      Prepared l origin t c' k' s m' := by
  obtain ⟨⟨hc, hm, d, hs, hd, hv⟩, hst, hst', hpending, hfits⟩ := h
  exact ⟨_, _, _, hs.observe hc, rfl, ⟨hc, hm, d, hs, hd, hd⟩, hst, hst', hpending, hfits⟩

theorem close_apart (h : Linked l origin c k s m) : ∃ m', Store.close c s = (.ok (), s) ∧
    Store.close k m = (.ok (), m') ∧ Apart l origin s m' :=
  ⟨_, rfl, rfl, h.apart⟩

/-- Whatever a session does, the file and the store in memory answer alike. -/
def lockstep (l : Location) (origin : Database) : Lockstep DatabaseFile Memory where
  monitor := .idle
  astray _ := False
  stays _ h := h
  apart := Apart l origin
  linked := Linked l origin
  prepared := Prepared l origin
  linked_of_prepared h := h.linked
  connect h _ := by
    obtain ⟨c, k, m', hc, hk, hl⟩ := connect_linked h
    rw [hc]
    exact ⟨k, m', hk, hl⟩
  prepare t _ _ _ _ h _ := by
    obtain ⟨c', k', m', hc, hk, hp⟩ := prepare_prepared h t
    rw [hc]
    exact ⟨k', m', hk, hp⟩
  addRow hmem h _ := by
    obtain ⟨c', k', hc, hk, hp⟩ := addRow_prepared h (Batch.fits hmem) (Batch.length_row hmem)
    rw [hc]
    exact ⟨k', _, hk, hp⟩
  pending h := (congrArg Array.size h.pending).symm
  clearBatch h := ⟨h.linked, h.statement, h.statement', rfl, List.forall_mem_nil _⟩
  execute h _ := by
    obtain ⟨c', k', m', hc, hk, hp⟩ := execute_prepared h
    rw [hc]
    exact ⟨k', m', hk, hp⟩
  commit h _ := by
    obtain ⟨c', s', k', m', hc, hk, hp⟩ := commit_prepared h
    rw [hc]
    exact ⟨k', m', hk, hp⟩
  rollback h _ := by
    obtain ⟨c', k', m', hc, hk, hp⟩ := rollback_prepared h
    rw [hc]
    exact ⟨k', m', hk, hp⟩
  close h _ := by
    obtain ⟨m', hc, hk, hp⟩ := close_apart h
    rw [hc]
    exact ⟨m', hk, hp⟩

end DatabaseFile
end MapLoader
