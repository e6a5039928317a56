import MapLoader.Proofs.Store.Faults
import MapLoader.Proofs.Store.Transactions

/-! What a store in memory with faults shows to the outside, and how every call changes it. A
call that is struck is counted and changes nothing, but for a batch that is dropped and a
connection that is closed all the same. -/

namespace MapLoader

namespace Memory.Connection

/-- Prepared for a table, with rows executed in its transaction and rows that wait. -/
structure Holds (t : Table) (executed waiting : List Row) (c : Connection) : Prop where
  statement : c.statement = some t
  pending : c.pending.toList = waiting
  uncommitted : c.uncommitted.toList = executed.map fun r => (t, r)

theorem Holds.rows {t : Table} {executed waiting : List Row} {c : Connection}
    (h : c.Holds t executed waiting) : c.uncommitted.toList.map Prod.snd = executed := by
  rw [h.uncommitted, List.map_map]
  exact List.map_id executed

end Memory.Connection

namespace Faulty

/-- Clearing the batch drops the rows that wait and no others. -/
theorem holds_clearBatch {t : Table} {executed waiting : List Row}
    {c : Connection Memory.Connection} (h : c.inner.Holds t executed waiting) :
    (Store.clearBatch (Faulty Memory) c).inner.Holds t executed [] :=
  ⟨h.statement, rfl, h.uncommitted⟩

/-- The store spares some kinds of calls and shows so many open connections, these transactions,
the latest first, and these committed rows. -/
structure Shows (spared : List CallPoint) (s : Faulty Memory) (connections : Nat)
    (past : List Transaction) (committed : Table → List Row) : Prop where
  spares : ∀ p ∈ spared, Fault.Spares p s.faults
  calm : s.inner.Calm
  connections : s.inner.openConnections = connections
  history : s.inner.history = past
  committed : ∀ t, (s.inner.committed.get t).toList = committed t

variable {spared : List CallPoint} {s : Faulty Memory} {n : Nat} {past : List Transaction}
  {committed : Table → List Row} {fs : List Fault}
  {c : Connection Memory.Connection} {t : Table} {executed waiting : List Row}

theorem Shows.left (h : Shows spared s n past committed) (hl : Fault.Leaves s.faults fs) :
    ∀ p ∈ spared, Fault.Spares p fs := fun p hp => hl p (h.spares p hp)

theorem Shows.struck (h : Shows spared s n past committed) (hl : Fault.Leaves s.faults fs) :
    Shows spared (s.struck fs) n past committed :=
  ⟨h.left hl, h.calm, h.connections, h.history, h.committed⟩

theorem connect_shows (h : Shows spared s n past committed) :
    (∃ s', Store.connect s = (.ok ⟨none, {}⟩, s') ∧ s'.strikes = s.strikes ∧
        Shows spared s' (n + 1) ({} :: past) committed) ∨
      ∃ e s', Store.connect s = (.error e, s') ∧ s.strikes < s'.strikes ∧
        Shows spared s' n past committed := by
  obtain ⟨fs, hl, he | he⟩ := connect_cases s
  · exact .inr ⟨_, _, he, by simp, h.struck hl⟩
  · rw [Memory.connect_calm h.calm] at he
    refine .inl ⟨_, he, rfl, h.left hl, h.calm, ?_, ?_, h.committed⟩
    · simp [h.connections]
    · rw [← h.history]
      exact (Memory.history_of_events rfl).trans (Memory.history_note s.inner .opened)

theorem prepare_shows (h : Shows spared s n past committed) (hc : c.inner.uncommitted = #[])
    (t : Table) :
    (∃ c' s', Store.prepare t c s = (.ok (), c', s') ∧ s'.strikes = s.strikes ∧
        Shows spared s' n past committed ∧ c'.inner.Holds t [] []) ∨
      ∃ e c' s', Store.prepare t c s = (.error e, c', s') ∧ s.strikes < s'.strikes ∧
        Shows spared s' n past committed := by
  obtain ⟨fs, hl, he | he⟩ := prepare_cases t c s
  · exact .inr ⟨_, _, _, he, by simp, h.struck hl⟩
  · refine .inl ⟨_, _, he, rfl, ⟨h.left hl, h.calm, h.connections, ?_,
      h.committed⟩, rfl, rfl, by simp [Store.prepare, Memory.prepare, hc]⟩
    rw [← h.history]
    exact Memory.history_note s.inner (.prepared t)

/-- A row that fits the table waits after the others, unless binding it is struck. -/
theorem addRow_shows (h : Shows spared s n past committed) (hc : c.inner.Holds t executed waiting)
    {r : Row} (hr : r.length = t.arity) :
    (∃ c' s', Store.addRow r c s = (.ok (), c', s') ∧ s'.strikes = s.strikes ∧
        Shows spared s' n past committed ∧ c'.inner.Holds t executed (waiting ++ [r])) ∨
      ∃ e s', Store.addRow r c s = (.error e, c, s') ∧ s.strikes < s'.strikes ∧
        Shows spared s' n past committed := by
  obtain ⟨fs, hl, he | he⟩ := addRow_cases r c s
  · exact .inr ⟨_, _, he, by simp, h.struck hl⟩
  · have hm : Store.addRow r c.inner s.inner =
        (.ok (), { c.inner with pending := c.inner.pending.push r }, s.inner) := by
      simp [Store.addRow, Memory.addRow, hc.statement, hr]
    rw [hm] at he
    refine .inl ⟨_, _, he, rfl, ⟨h.left hl, h.calm, h.connections, h.history,
      h.committed⟩, hc.statement, ?_, hc.uncommitted⟩
    simp [hc.pending]

/-- The rows that wait are executed together or not at all, and none waits afterwards. -/
theorem execute_shows (h : Shows spared s n past committed) (hk : .executeKeep ∈ spared)
    (hc : c.inner.Holds t executed waiting) :
    (∃ c' s', Store.execute c s = (.ok waiting.length, c', s') ∧ s'.strikes = s.strikes ∧
        Shows spared s' n ((past.headD {}).post t waiting :: past.tail) committed ∧
        c'.inner.Holds t (executed ++ waiting) []) ∨
      ∃ e c' s', Store.execute c s = (.error e, c', s') ∧ s.strikes < s'.strikes ∧
        Shows spared s' n past committed ∧ c'.inner.Holds t executed [] := by
  obtain ⟨fs, hl, he | ⟨hkept, -⟩ | he⟩ := execute_cases c s
  · exact .inr ⟨_, _, _, he, by simp, h.struck hl, hc.statement, rfl, hc.uncommitted⟩
  · exact absurd (h.spares _ hk) hkept
  · rw [Memory.execute_calm h.calm hc.statement] at he
    have hsize : c.inner.pending.size = waiting.length := by simp [← hc.pending]
    rw [hsize] at he
    refine .inl ⟨_, _, he, rfl, ⟨h.left hl, h.calm, h.connections, ?_,
      h.committed⟩, hc.statement, rfl, ?_⟩
    · rw [← h.history, ← hc.pending]
      exact Memory.history_note s.inner (.executed t c.inner.pending)
    · simp [hc.uncommitted, hc.pending]

/-- The rows executed in the transaction are committed together or not at all. -/
theorem commit_shows (h : Shows spared s n past committed) (hc : c.inner.Holds t executed []) :
    (∃ c' s', Store.commit c s = (.ok (), c', s') ∧ s'.strikes = s.strikes ∧
        Shows spared s' n (past.modifyHead Transaction.settle)
          (fun u => committed u ++ if t = u then executed else [])) ∨
      ∃ c' s', Store.commit c s = (.error (.injected .commit), c', s') ∧ s.strikes < s'.strikes ∧
        Shows spared s' n past committed := by
  obtain ⟨fs, hl, he | he⟩ := commit_cases c s
  · exact .inr ⟨_, _, he, by simp, h.struck hl⟩
  · rw [Memory.commit_calm h.calm] at he
    refine .inl ⟨_, _, he, rfl, h.left hl, h.calm, h.connections, ?_, ?_⟩
    · rw [← h.history]
      exact (Memory.history_of_events rfl).trans (Memory.history_note s.inner .committed)
    · intro u
      have hrows : (executed.map fun r => (t, r)).flatMap (fun x => if x.1 = u then [x.2] else []) =
          if t = u then executed else [] := by
        by_cases htu : t = u <;> simp [htu, List.flatMap_map]
      simp only [inner_passed]
      rw [← Array.foldl_toList, hc.uncommitted, Memory.get_foldl_insertRow, hrows, h.committed]

theorem rollback_shows (h : Shows spared s n past committed) :
    ∃ o c' s', Store.rollback c s = (o, c', s') ∧ s.strikes ≤ s'.strikes ∧
      (∀ e, o = .error e → s.strikes < s'.strikes) ∧ Shows spared s' n past committed := by
  obtain ⟨fs, hl, he | he⟩ := rollback_cases c s
  · exact ⟨_, _, _, he, by simp, by simp, h.struck hl⟩
  · refine ⟨_, _, _, he, Nat.le_refl _, nofun, h.left hl, h.calm,
      h.connections, ?_, h.committed⟩
    rw [← h.history]
    exact Memory.history_note s.inner .rolledBack

theorem close_shows (h : Shows spared s n past committed) :
    (∃ s', Store.close c s = (.ok (), s') ∧ s'.strikes = s.strikes ∧
        Shows spared s' (n - 1) past committed) ∨
      ∃ s', Store.close c s = (.error (.injected .close), s') ∧ .close ∉ spared ∧
        s.strikes < s'.strikes ∧ Shows spared s' (n - 1) past committed := by
  have hm (fs : List Fault) (hl : Fault.Leaves s.faults fs) :
      Shows spared (s.passed fs (Store.close c.inner s.inner).2) (n - 1) past committed := by
    refine ⟨h.left hl, h.calm, ?_, ?_, h.committed⟩
    · exact congrArg (· - 1) h.connections
    · rw [← h.history]
      exact (Memory.history_of_events rfl).trans (Memory.history_note s.inner .closed)
  obtain ⟨fs, hl, ⟨hs, he⟩ | he⟩ := close_cases c s
  · have hn : CallPoint.close ∉ spared := fun hp => hs (h.spares _ hp)
    exact .inr ⟨_, he, hn, by simp, (hm s.faults fun _ hp => hp).struck hl⟩
  · exact .inl ⟨_, he, rfl, hm fs hl⟩

end Faulty
end MapLoader
