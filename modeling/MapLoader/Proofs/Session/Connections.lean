import MapLoader.Proofs.Session.Refinement
import MapLoader.Proofs.Store.Journal

/-! The connections of a session, as the journal of its store tells them. They live one after
another, and between two operations one is open just when the session is. -/

namespace MapLoader

namespace Session

/-- Between its operations a session has closed every connection but its own: the journal holds
whole lives, and the beginning of one more if the session is open. -/
inductive Lives : FaultySession → Prop
  | closed {store : Faulty Memory} (lives : List Memory.Life) (log : Array Notice)
    (h : store.Tells (lives.flatMap Memory.Life.events) 0) : Lives ⟨store, none, log⟩
  | live {store : Faulty Memory} {t : Table} {c : Faulty.Connection Memory.Connection}
    (lives : List Memory.Life) (batches : List (Array Row)) (log : Array Notice)
    (hc : c.inner.statement = some t)
    (h : store.Tells (lives.flatMap Memory.Life.events ++ Memory.Life.begun t batches) 1) :
    Lives ⟨store, some ⟨t, c⟩, log⟩

variable {s : FaultySession} {store : Faulty Memory} {t : Table} {lives : List Memory.Life}
  {batches : List (Array Row)}

theorem Lives.tell (h : s.Lives) (n : Notice) : (s.tell n).Lives := by
  cases h with
  | closed lives log h => exact .closed lives _ h
  | live lives batches log hc h => exact .live lives batches _ hc h

theorem lives_openFor (h : s.Lives) (hs : s.live = none) (t : Table) : (s.openFor t).2.Lives := by
  cases h with
  | live lives batches log hc h => cases hs
  | closed lives log h =>
    unfold openFor
    dsimp only
    obtain ⟨c, s₁, he, h₁⟩ | ⟨e, s₁, he, h₁⟩ := Faulty.connect_tells h <;> rw [he]
    · dsimp only
      obtain ⟨c, s₂, he, hc, h₂⟩ | ⟨e, c, s₂, he, h₂⟩ := Faulty.prepare_tells h₁ t c <;> rw [he]
      · exact .live lives [] _ hc (by simpa [Memory.Life.begun] using h₂)
      · obtain ⟨o, s₃, he, h₃⟩ := Faulty.close_tells h₂ c
        have h₃ : s₃.Tells ((lives ++ [Memory.Life.refused]).flatMap Memory.Life.events) 0 := by
          simpa [Memory.Life.events] using h₃
        dsimp only
        rw [he]
        cases o with
        | ok => exact .closed _ _ h₃
        | error e' => exact .closed _ _ h₃
    · exact .closed lives _ h₁

/-- Closing the connection of a transaction that is over makes its life whole. -/
theorem lives_release (ending : Option Memory.Ending)
    (h : store.Tells (lives.flatMap Memory.Life.events ++ (Memory.Life.begun t batches ++
      (ending.map Memory.Ending.event).toList)) 1)
    (outcome : Except StoreError Unit) (c : Faulty.Connection Memory.Connection)
    (log : Array Notice) : (release t outcome c ⟨store, none, log⟩).2.Lives := by
  obtain ⟨o, s₁, he, h₁⟩ := Faulty.close_tells h c
  have h₁ :
      s₁.Tells ((lives ++ [Memory.Life.used t batches ending]).flatMap Memory.Life.events) 0 := by
    simpa [Memory.Life.events] using h₁
  unfold release
  dsimp only
  rw [he]
  cases outcome with
  | ok => exact .closed _ _ h₁
  | error e =>
    cases o with
    | ok => exact .closed _ _ h₁
    | error e' => exact .closed _ _ h₁

/-- Committing may execute one more batch. -/
theorem commitPending_tells {es : List Memory.Event} {c : Faulty.Connection Memory.Connection}
    (h : store.Tells es 1) (hc : c.inner.statement = some t) :
    ∃ batches : List (Array Row),
      (∃ c' s', commitPending c store = (.ok (), c', s') ∧
        s'.Tells (es ++ batches.map (.executed t) ++ [.committed]) 1) ∨
      ∃ e c' s', commitPending c store = (.error e, c', s') ∧
        s'.Tells (es ++ batches.map (.executed t)) 1 := by
  unfold commitPending
  split
  · obtain ⟨o, c', s₁, he, hc', batches, h₁⟩ := Faulty.execute_tells h hc
    rw [he]
    refine ⟨batches, ?_⟩
    cases o with
    | ok rows => exact Faulty.commit_tells h₁ c'
    | error e => exact .inr ⟨e, c', s₁, rfl, h₁⟩
  · exact ⟨[], by simpa using Faulty.commit_tells h c⟩

theorem rollbackFailed_tells {es : List Memory.Event} (h : store.Tells es 1) (t : Table)
    (e : StoreError) (c : Faulty.Connection Memory.Connection) (log : Array Notice) :
    ∃ c' s' log', rollbackFailed t e c ⟨store, none, log⟩ = (c', ⟨s', none, log'⟩) ∧
      ∃ ending : Option Memory.Ending,
        s'.Tells (es ++ (ending.map Memory.Ending.event).toList) 1 := by
  obtain ⟨o, c', s₁, he, ending, h₁⟩ := Faulty.rollback_tells h c
  unfold rollbackFailed
  dsimp only [Session.tell]
  rw [he]
  cases o with
  | ok => exact ⟨_, _, _, rfl, ending, h₁⟩
  | error e' => exact ⟨_, _, _, rfl, ending, h₁⟩

theorem lives_endTransaction (h : s.Lives) (commit : Bool) : (s.endTransaction commit).2.Lives := by
  cases h with
  | closed lives log h => exact .closed lives log h
  | @live store t c lives batches log hc h =>
    have happ (more : List (Array Row)) :
        lives.flatMap Memory.Life.events ++ Memory.Life.begun t batches ++
            more.map (.executed t) =
          lives.flatMap Memory.Life.events ++ Memory.Life.begun t (batches ++ more) := by
      simp [Memory.Life.begun]
    unfold endTransaction
    dsimp only
    cases commit with
    | true =>
      rw [if_pos rfl]
      obtain ⟨more, ⟨c', s₁, he, h₁⟩ | ⟨e, c', s₁, he, h₁⟩⟩ := commitPending_tells h hc <;>
        rw [he] <;> rw [happ] at h₁ <;> dsimp only
      · exact lives_release (some .committed)
          (by simpa [Memory.Ending.event] using h₁) _ c' log
      · obtain ⟨c₂, s₂, log', he, ending, h₂⟩ := rollbackFailed_tells h₁ t e c' log
        rw [he]
        exact lives_release ending (by simpa using h₂) _ c₂ log'
    | false =>
      rw [if_neg Bool.false_ne_true]
      obtain ⟨o, c', s₁, he, ending, h₁⟩ := Faulty.rollback_tells h c
      rw [he]
      exact lives_release ending (by simpa using h₁) o c' log

theorem bindAll_tells {es : List Memory.Event} {c : Faulty.Connection Memory.Connection}
    (h : store.Tells es 1) (hc : c.inner.statement = some t) (bs : List Binding)
    (log : Array Notice) :
    ∃ o c' s' log', bindAll bs c store log = (o, c', s', log') ∧ c'.inner.statement = some t ∧
      s'.Tells es 1 := by
  induction bs generalizing c store log with
  | nil => exact ⟨_, c, store, log, rfl, hc, h⟩
  | cons b rest ih =>
    obtain ⟨o, c', s₁, he, hc', h₁⟩ := Faulty.addRow_tells h b.row c
    rw [bindAll, he]
    cases o with
    | ok => exact ih h₁ (hc'.trans hc) _
    | error e => exact ⟨_, c', s₁, _, rfl, hc'.trans hc, h₁⟩

theorem lives_insert (h : s.Lives) (b : Batch) : (s.insert b).2.Lives := by
  by_cases hb : s.openTable? = some b.table
  · cases h with
    | closed lives log h => cases hb
    | @live store t c lives batches log hc h =>
      have ht : t = b.table := Option.some.inj hb
      unfold insert
      dsimp only
      rw [if_pos ht]
      obtain ⟨o, c', s₁, log', he, hc', h₁⟩ := bindAll_tells h hc b.bindings log
      rw [he]
      cases o with
      | error e => exact .live lives batches log' hc' h₁
      | ok =>
        obtain ⟨o, c₂, s₂, he, hc₂, more, h₂⟩ := Faulty.execute_tells h₁ hc'
        dsimp only
        rw [he]
        exact .live lives (batches ++ more) log' hc₂ (by simpa [Memory.Life.begun] using h₂)
  · rw [insert_astray hb]
    exact h

theorem lives_openFresh (h : s.Lives) (hs : s.live = none) (t : Table) :
    (s.openFresh t).2.Lives := lives_openFor h hs t

theorem lives_switchTo (h : s.Lives) (t : Table) : (s.switchTo t).2.Lives := by
  unfold switchTo
  split
  · rename_i hn
    exact lives_openFresh h (Option.map_eq_none_iff.1 hn) t
  · rename_i previous _
    have he := lives_endTransaction h true
    have hl := live_endTransaction true s
    split <;> rename_i hx <;> rw [hx] at he hl
    · exact he
    · rename_i s'
      have ho := lives_openFor (he.tell (.switched previous t)) hl t
      split <;> rename_i hy <;> rw [hy] at ho <;> exact ho

theorem lives_beginBatch (h : s.Lives) (t : Table) : (s.beginBatch t).2.Lives := by
  by_cases hn : s.openTable? = some t
  · rw [beginBatch_stays hn]
    exact h
  · rw [beginBatch_eq_switchTo hn]
    exact lives_switchTo h t

theorem live_endBatch {σ κ : Type} [Store σ κ] (commit : Bool) (s : Session σ κ) :
    (s.endBatch commit).2.live = none := live_endTransaction commit s

theorem lives_endBatch (h : s.Lives) (commit : Bool) : (s.endBatch commit).2.Lives :=
  lives_endTransaction h commit

theorem lives_abandon (h : s.Lives) : s.abandon.Lives ∧ s.abandon.live = none := by
  unfold abandon
  split
  · rename_i hn
    exact ⟨h, Option.map_eq_none_iff.1 hn⟩
  · rename_i t _
    have he := lives_endBatch (h.tell (.discarding t)) false
    have hl := live_endTransaction false (s.tell (.discarding t))
    unfold endBatch at he ⊢
    split <;> rename_i hx <;> rw [Prod.mk.injEq] at hx <;> rw [hx.2] at he hl
    · exact ⟨he, hl⟩
    · exact ⟨he.tell _, hl⟩

theorem lives_perform (h : s.Lives) (call : Call) : (s.perform call).2.Lives := by
  cases call with
  | begin t => exact lives_beginBatch h t
  | switch t => exact lives_switchTo h t
  | insert b => exact lives_insert h b
  | finish commit => exact lives_endBatch h commit
  | renew =>
    obtain ⟨ha, hl⟩ := lives_abandon h
    change ({ s.abandon with live := none } : FaultySession).Lives
    rw [← hl]
    exact ha

theorem lives_performAll (h : s.Lives) (calls : List Call) : (s.performAll calls).Lives := by
  induction calls generalizing s with
  | nil => exact h
  | cons call calls ih => exact ih (lives_perform h call)

theorem lives_fresh (faults : List Fault) : (fresh faults).Lives := .closed [] _ ⟨rfl, rfl, by simp⟩

/-- No call takes anything out of the journal. -/
theorem journal_perform (s : FaultySession) (call : Call) :
    s.store.inner.events.toList <+: (s.perform call).2.store.inner.events.toList :=
  always_perform Faulty.journalMonitor s call

/-- The protocol of connections: never two at a time, one between two operations just when the
session has a pending write, and a journal of whole lives, followed by the beginning of one more
on the open table if there is one. -/
structure Orderly (s : FaultySession) : Prop where
  single : s.store.inner.maxOpenConnections ≤ 1
  connections : s.store.inner.openConnections = if s.hasPendingWrite then 1 else 0
  journal : ∃ lives : List Memory.Life, match s.openTable? with
    | none => s.store.inner.events.toList = lives.flatMap Memory.Life.events
    | some t => ∃ batches, s.store.inner.events.toList =
        lives.flatMap Memory.Life.events ++ Memory.Life.begun t batches

theorem Lives.orderly (h : s.Lives) : s.Orderly := by
  cases h with
  | closed lives log h => exact ⟨h.single, h.connections, lives, h.events⟩
  | live lives batches log hc h => exact ⟨h.single, h.connections, lives, batches, h.events⟩

/-- An orderly session that is closed has left no connection open. -/
theorem Lives.released (h : s.Lives) (hs : s.live = none) : s.store.inner.openConnections = 0 := by
  cases h with
  | closed lives log h => exact h.connections
  | live lives batches log hc h => cases hs

end Session
end MapLoader
