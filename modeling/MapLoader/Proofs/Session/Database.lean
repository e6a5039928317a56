import MapLoader.Proofs.Database.Calls
import MapLoader.Proofs.Session.Refinement

/-! Sessions over a database with any tables and rows, behind faults. Between two operations no row
waits on the connection of a session, so a batch that is taken is inserted at once and as it is. -/

namespace MapLoader

abbrev DatabaseSession := Session (Faulty Database) (Faulty.Connection Database.Connection)

/-- Prepared for a table, with rows that wait. -/
structure Database.Connection.Gathers (t : Table) (waiting : List Row)
    (c : Database.Connection) : Prop where
  statement : c.statement = some t
  pending : c.pending.toList = waiting

namespace Faulty

variable {s : Faulty Database} {c : Connection Database.Connection} {t : Table}
  {waiting : List Row}

theorem prepare_gathers (t : Table) (c : Connection Database.Connection) (s : Faulty Database) :
    (∃ c' s', Store.prepare t c s = (.ok (), c', s') ∧ c'.inner.Gathers t []) ∨
      ∃ e c' s', Store.prepare t c s = (.error e, c', s') := by
  obtain ⟨fs, -, he | he⟩ := prepare_cases t c s
  · exact .inr ⟨_, _, _, he⟩
  · have hp : Store.prepare t c.inner s.inner = Database.prepare t c.inner s.inner := rfl
    rw [hp, Database.prepare] at he
    cases ht : (c.inner.view s.inner).target t with
    | error e =>
      rw [ht] at he
      exact .inr ⟨_, _, _, he⟩
    | ok u =>
      rw [ht] at he
      exact .inl ⟨_, _, he, rfl, rfl⟩

theorem addRow_gathers (hc : c.inner.Gathers t waiting) (r : Row) (s : Faulty Database) :
    (∃ c' s', Store.addRow r c s = (.ok (), c', s') ∧ c'.inner.Gathers t (waiting ++ [r]) ∧
        c'.inner.view s'.inner = c.inner.view s.inner) ∨
      ∃ e c' s', Store.addRow r c s = (.error e, c', s') ∧ c'.inner.Gathers t waiting := by
  obtain ⟨fs, -, he | he⟩ := addRow_cases r c s
  · exact .inr ⟨_, _, _, he, hc⟩
  · have ha : Store.addRow r c.inner s.inner = Database.addRow r c.inner s.inner := rfl
    rw [ha, Database.addRow, hc.statement] at he
    dsimp only at he
    split at he
    · exact .inl ⟨_, _, he, ⟨rfl, by simp [hc.pending]⟩, rfl⟩
    · exact .inr ⟨_, _, _, he, hc⟩

/-- The rows that wait are inserted together or not at all, and none waits afterwards. -/
theorem execute_gathers (hs : Fault.Spares .executeKeep s.faults)
    (hc : c.inner.Gathers t waiting) :
    (∃ c' s', Store.execute c s = (.ok waiting.length, c', s') ∧ c'.inner.Gathers t [] ∧
        (c.inner.view s.inner).insertRows t waiting = (.ok (), c'.inner.view s'.inner)) ∨
      ∃ e c' s', Store.execute c s = (.error e, c', s') ∧ c'.inner.Gathers t [] := by
  obtain ⟨fs, -, he | ⟨hk, -⟩ | he⟩ := execute_cases c s
  · exact .inr ⟨_, _, _, he, hc.statement, rfl⟩
  · exact absurd hs hk
  · obtain ⟨u, v, hu, hi, hx⟩ | ⟨e, w, -, -, hx⟩ := Database.execute_cases c.inner s.inner
    · obtain rfl : t = u := Option.some.inj (hc.statement.symm.trans hu)
      have hsize : c.inner.pending.size = waiting.length := by simp [← hc.pending]
      rw [hx, hsize] at he
      rw [hc.pending] at hi
      exact .inl ⟨_, _, he, ⟨hc.statement, rfl⟩, hi⟩
    · rw [hx] at he
      exact .inr ⟨_, _, _, he, hc.statement, rfl⟩

end Faulty

namespace Session

theorem switchTo_cases {σ κ : Type} [Store σ κ] (t : Table) (s : Session σ κ) :
    ∃ v : Session σ κ, v.live = none ∧
      ((s.switchTo t).2 = v ∨ (s.switchTo t).2 = (v.openFor t).2) := by
  unfold switchTo
  split
  · rename_i hn
    exact ⟨s, Option.map_eq_none_iff.1 hn, .inr rfl⟩
  · rename_i previous _
    have hl := live_endTransaction true s
    split <;> rename_i v hx <;> rw [hx] at hl
    · exact ⟨v, hl, .inl rfl⟩
    · refine ⟨v.tell (.switched previous t), hl, .inr ?_⟩
      split <;> rename_i hy <;> rw [hy]

/-- The database as the session sees it, with the rows of an open transaction. -/
def view (s : DatabaseSession) : Database :=
  s.live.elim s.store.inner fun l => l.connection.inner.view s.store.inner

/-- The connection of the session is prepared for its table, and no row waits there. -/
def Poised (s : DatabaseSession) : Prop :=
  ∀ l, s.live = some l → l.connection.inner.Gathers l.table []

variable {s : DatabaseSession} {store : Faulty Database} {t : Table} {waiting : List Row}
  {c : Faulty.Connection Database.Connection}

theorem poised_of_closed (h : s.live = none) : s.Poised := fun _ hl => nomatch h.symm.trans hl

theorem poised_live {log : Array Notice} (h : c.inner.Gathers t []) :
    Poised ⟨store, some ⟨t, c⟩, log⟩ := by
  intro l hl
  cases hl
  exact h

theorem poised_openFor (h : s.live = none) (t : Table) : (s.openFor t).2.Poised := by
  unfold openFor
  split
  · exact poised_of_closed h
  · rename_i c store _
    obtain ⟨c', s', he, hc⟩ | ⟨e, c', s', he⟩ := Faulty.prepare_gathers t c store <;> rw [he]
    · exact poised_live hc
    · dsimp only
      split <;> exact poised_of_closed h

theorem poised_switchTo (t : Table) (s : DatabaseSession) : (s.switchTo t).2.Poised := by
  obtain ⟨v, hv, he | he⟩ := switchTo_cases t s <;> rw [he]
  · exact poised_of_closed hv
  · exact poised_openFor hv t

theorem bindAll_gathers (hc : c.inner.Gathers t waiting) (bs : List Binding)
    (store : Faulty Database) (log : Array Notice) :
    (∃ c' store' log', bindAll bs c store log = (.ok (), c', store', log') ∧
        c'.inner.Gathers t (waiting ++ bs.map Binding.row) ∧
        c'.inner.view store'.inner = c.inner.view store.inner) ∨
      ∃ e c' store' log' waiting', bindAll bs c store log = (.error e, c', store', log') ∧
        c'.inner.Gathers t waiting' := by
  induction bs generalizing c store log waiting with
  | nil => exact .inl ⟨c, store, log, rfl, by simpa using hc, rfl⟩
  | cons b rest ih =>
    rw [bindAll]
    obtain ⟨c', s₁, he, hc', hv⟩ | ⟨e, c', s₁, he, hc'⟩ := Faulty.addRow_gathers hc b.row store <;>
      rw [he]
    · have hrest := ih hc' s₁ (b.notice.elim log log.push)
      rw [hv, List.append_assoc] at hrest
      exact hrest
    · exact .inr ⟨_, _, _, _, _, rfl, hc'⟩

/-- A batch for the open table is inserted as a whole or not at all. -/
theorem insert_gathers (hs : Fault.Spares .executeKeep s.store.faults) (h : s.Poised) {b : Batch}
    (hb : s.openTable? = some b.table) :
    (∃ u, s.insert b = (.ok b.rows.length, u) ∧ u.Poised ∧
        s.view.insertRows b.table b.rows = (.ok (), u.view)) ∨
      ∃ e u, s.insert b = (.error e, u) ∧ u.Poised := by
  obtain ⟨store, live, log⟩ := s
  cases live with
  | none => cases hb
  | some l =>
    obtain ⟨t, c⟩ := l
    obtain rfl : t = b.table := Option.some.inj hb
    have hc := h _ rfl
    -- binding rows spends faults but makes none, so a batch that fails is still dropped
    have hbind := (sees_bindAll Faulty.monitor b.bindings c store log).always.2 _ hs
    unfold insert
    dsimp only
    rw [if_pos rfl]
    obtain ⟨c', s₁, log', he, hc', hv⟩ | ⟨e, c', s₁, log', w, he, hc'⟩ :=
      bindAll_gathers hc b.bindings store log <;> rw [he] at hbind ⊢
    · obtain ⟨c₂, s₂, he, hc₂, hi⟩ | ⟨e, c₂, s₂, he, hc₂⟩ := Faulty.execute_gathers hbind hc' <;>
        dsimp only <;> rw [he]
      · have hview : (c.inner.view store.inner).insertRows b.table b.rows =
            (.ok (), c₂.inner.view s₂.inner) := hv ▸ hi
        exact .inl ⟨_, rfl, poised_live hc₂, hview⟩
      · exact .inr ⟨_, _, rfl, poised_live hc₂⟩
    · exact .inr ⟨_, _, rfl, poised_live ⟨hc'.statement, rfl⟩⟩

theorem poised_perform (hs : Fault.Spares .executeKeep s.store.faults) (h : s.Poised)
    (call : Call) : (s.perform call).2.Poised := by
  cases call with
  | begin t =>
    by_cases ht : s.openTable? = some t
    · simpa [perform, beginBatch_stays ht] using h
    · simpa [perform, beginBatch_eq_switchTo ht] using poised_switchTo t s
  | switch t => exact poised_switchTo t s
  | insert b =>
    by_cases hb : s.openTable? = some b.table
    · obtain ⟨u, he, hu, -⟩ | ⟨e, u, he, hu⟩ := insert_gathers hs h hb
      · simpa [perform, he] using hu
      · simpa [perform, he] using hu
    · simpa [perform, insert_astray hb] using h
  | finish commit => exact poised_of_closed (live_endTransaction commit s)
  | renew => exact poised_of_closed rfl

theorem poised_performAll (hs : Fault.Spares .executeKeep s.store.faults) (h : s.Poised)
    (calls : List Call) : Fault.Spares .executeKeep (s.performAll calls).store.faults ∧
      (s.performAll calls).Poised := by
  induction calls generalizing s with
  | nil => exact ⟨hs, h⟩
  | cons call calls ih =>
    exact ih ((always_perform Faulty.monitor s call).2 _ hs) (poised_perform hs h call)

def overDatabase (faults : List Fault) (d : Database) : DatabaseSession :=
  { store := { faults, inner := d } }

/-- Whatever was called and struck before, a batch that is taken is inserted as it is. -/
theorem insert_database {faults : List Fault} (hf : Fault.Conforming faults) (d : Database)
    (calls : List Call) {b : Batch} {n : Nat} {u : DatabaseSession}
    (hb : ((overDatabase faults d).performAll calls).openTable? = some b.table)
    (hi : ((overDatabase faults d).performAll calls).insert b = (.ok n, u)) :
    n = b.rows.length ∧
      ((overDatabase faults d).performAll calls).view.insertRows b.table b.rows =
        (.ok (), u.view) := by
  have hspared : Fault.Spares .executeKeep (overDatabase faults d).store.faults := hf
  obtain ⟨hs, h⟩ := poised_performAll hspared (poised_of_closed rfl) calls
  generalize (overDatabase faults d).performAll calls = s at hb hi hs h ⊢
  obtain ⟨v, he, -, hv⟩ | ⟨e, v, he, -⟩ := insert_gathers hs h hb <;> rw [he] at hi <;> cases hi
  exact ⟨rfl, hv⟩

end Session
end MapLoader
