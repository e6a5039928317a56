import MapLoader.Proofs.Store.Monitor
import MapLoader.Store.Memory

/-! What the journal of a store in memory tells of its connections. A call adds at most one event
to the journal, whether it is struck or not, and never takes one back. -/

namespace MapLoader

namespace Memory

/-- How a transaction ended that did not just go away with its connection. -/
inductive Ending
  | committed | rolledBack
  deriving DecidableEq, Repr

def Ending.event : Ending → Event
  | .committed => .committed
  | .rolledBack => .rolledBack

/-- All that a journal holds of a connection that is closed. -/
inductive Life
  /-- The connection could not be prepared. -/
  | refused
  /-- It was prepared for a table, executed batches on it, and ended its transaction at most once
  and last. -/
  | used (table : Table) (batches : List (Array Row)) (ending : Option Ending)
  deriving DecidableEq, Repr

namespace Life

/-- What a journal holds of a connection that is open between two operations. -/
def begun (t : Table) (batches : List (Array Row)) : List Event :=
  .opened :: .prepared t :: batches.map (.executed t)

def events : Life → List Event
  | refused => [.opened, .closed]
  | used t batches ending => begun t batches ++ (ending.map Ending.event).toList ++ [.closed]

end Life

end Memory

namespace Faulty

/-- The journal holds these events, so many connections are open, and never were two. -/
structure Tells (s : Faulty Memory) (events : List Memory.Event) (connections : Nat) : Prop where
  events : s.inner.events.toList = events
  connections : s.inner.openConnections = connections
  single : s.inner.maxOpenConnections ≤ 1

variable {s : Faulty Memory} {es : List Memory.Event} {n : Nat} {fs : List Fault}
  {c : Connection Memory.Connection} {t : Table}

theorem Tells.struck (h : s.Tells es n) : (s.struck fs).Tells es n :=
  ⟨h.events, h.connections, h.single⟩

theorem Tells.note {m : Memory} (h : s.Tells es n) (e : Memory.Event)
    (he : m.events = s.inner.events.push e) (hc : m.openConnections = s.inner.openConnections)
    (hm : m.maxOpenConnections = s.inner.maxOpenConnections) :
    (s.passed fs m).Tells (es ++ [e]) n :=
  ⟨by simp [he, h.events], hc.trans h.connections, hm.symm ▸ h.single⟩

theorem connect_tells (h : s.Tells es 0) :
    (∃ c s', Store.connect s = (.ok c, s') ∧ s'.Tells (es ++ [.opened]) 1) ∨
      ∃ e s', Store.connect s = (.error e, s') ∧ s'.Tells es 0 := by
  obtain ⟨fs, -, he | he⟩ := connect_cases s
  · exact .inr ⟨_, _, he, h.struck⟩
  by_cases hf : s.inner.failsOpen = true
  · have hm : Store.connect s.inner = (.error (.injected .connect), s.inner) := by
      simp [Store.connect, Memory.connect, hf]
    rw [hm] at he
    exact .inr ⟨_, _, he, h.events, h.connections, h.single⟩
  · have hm : Store.connect s.inner = (.ok {}, { s.inner.note .opened with
        openConnections := s.inner.openConnections + 1
        maxOpenConnections := max s.inner.maxOpenConnections (s.inner.openConnections + 1) }) := by
      simp [Store.connect, Memory.connect, hf, Memory.note]
    rw [hm] at he
    refine .inl ⟨_, _, he, ?_, ?_, ?_⟩
    · simp [Memory.note, h.events]
    · exact congrArg (· + 1) h.connections
    · exact Nat.max_le.2 ⟨h.single, by simp [h.connections]⟩

theorem prepare_tells (h : s.Tells es n) (t : Table) (c : Connection Memory.Connection) :
    (∃ c' s', Store.prepare t c s = (.ok (), c', s') ∧ c'.inner.statement = some t ∧
        s'.Tells (es ++ [.prepared t]) n) ∨
      ∃ e c' s', Store.prepare t c s = (.error e, c', s') ∧ s'.Tells es n := by
  obtain ⟨fs, -, he | he⟩ := prepare_cases t c s
  · exact .inr ⟨_, _, _, he, h.struck⟩
  · exact .inl ⟨_, _, he, rfl, h.note (.prepared t) rfl rfl rfl⟩

theorem addRow_tells (h : s.Tells es n) (r : Row) (c : Connection Memory.Connection) :
    ∃ o c' s', Store.addRow r c s = (o, c', s') ∧ c'.inner.statement = c.inner.statement ∧
      s'.Tells es n := by
  obtain ⟨fs, -, he | he⟩ := addRow_cases r c s
  · exact ⟨_, _, _, he, rfl, h.struck⟩
  · have hm : (Store.addRow r c.inner s.inner).2.1.statement = c.inner.statement ∧
        (Store.addRow r c.inner s.inner).2.2 = s.inner := by
      simp only [Store.addRow, Memory.addRow]
      split
      · exact ⟨rfl, rfl⟩
      · split <;> exact ⟨rfl, rfl⟩
    exact ⟨_, _, _, he, hm.1, by simp [hm.2, h.events], by simp [hm.2, h.connections],
      by simp [hm.2, h.single]⟩

/-- A batch that is executed is noted with the table the connection was prepared for. -/
theorem execute_tells (h : s.Tells es n) (hc : c.inner.statement = some t) :
    ∃ o c' s', Store.execute c s = (o, c', s') ∧ c'.inner.statement = some t ∧
      ∃ batches : List (Array Row), s'.Tells (es ++ batches.map (.executed t)) n := by
  obtain ⟨fs, -, he | ⟨-, he⟩ | he⟩ := execute_cases c s
  · exact ⟨_, _, _, he, hc, [], by simpa using h.struck⟩
  · exact ⟨_, _, _, he, hc, [], by simpa using h.struck⟩
  by_cases hf : t ∈ s.inner.failsExecute
  · have hm : Store.execute c.inner s.inner =
        (.error (.injected .execute), { c.inner with pending := #[] }, s.inner) := by
      simp [Store.execute, Memory.execute, hc, hf]
    rw [hm] at he
    exact ⟨_, _, _, he, hc, [], by simpa using h.events, h.connections, h.single⟩
  · have hm : Store.execute c.inner s.inner = (.ok c.inner.pending.size,
        { c.inner with
          pending := #[]
          uncommitted := c.inner.uncommitted ++ c.inner.pending.map fun r => (t, r) },
        s.inner.note (.executed t c.inner.pending)) := by
      simp [Store.execute, Memory.execute, hc, hf]
    rw [hm] at he
    exact ⟨_, _, _, he, hc, [c.inner.pending], h.note (.executed t c.inner.pending) rfl rfl rfl⟩

theorem commit_tells (h : s.Tells es n) (c : Connection Memory.Connection) :
    (∃ c' s', Store.commit c s = (.ok (), c', s') ∧ s'.Tells (es ++ [.committed]) n) ∨
      ∃ e c' s', Store.commit c s = (.error e, c', s') ∧ s'.Tells es n := by
  obtain ⟨fs, -, he | he⟩ := commit_cases c s
  · exact .inr ⟨_, _, _, he, h.struck⟩
  by_cases hf : s.inner.failsCommit = true
  · have hm : Store.commit c.inner s.inner = (.error (.injected .commit), c.inner, s.inner) := by
      simp [Store.commit, Memory.commit, hf]
    rw [hm] at he
    exact .inr ⟨_, _, _, he, h.events, h.connections, h.single⟩
  · have hm : Store.commit c.inner s.inner = (.ok (), { c.inner with uncommitted := #[] },
        { s.inner.note .committed with
          committed := c.inner.uncommitted.foldl Memory.insertRow s.inner.committed }) := by
      simp [Store.commit, Memory.commit, hf, Memory.note]
    rw [hm] at he
    exact .inl ⟨_, _, he, h.note .committed rfl rfl rfl⟩

/-- Rolling back is noted unless it was struck. -/
theorem rollback_tells (h : s.Tells es n) (c : Connection Memory.Connection) :
    ∃ o c' s', Store.rollback c s = (o, c', s') ∧ ∃ ending : Option Memory.Ending,
      s'.Tells (es ++ (ending.map Memory.Ending.event).toList) n := by
  obtain ⟨fs, -, he | he⟩ := rollback_cases c s
  · exact ⟨_, _, _, he, none, by simpa using h.struck⟩
  · exact ⟨_, _, _, he, some .rolledBack, h.note .rolledBack rfl rfl rfl⟩

/-- Closing is noted even if it was struck. -/
theorem close_tells (h : s.Tells es n) (c : Connection Memory.Connection) :
    ∃ o s', Store.close c s = (o, s') ∧ s'.Tells (es ++ [.closed]) (n - 1) := by
  have hm (fs : List Fault) :
      (s.passed fs (Store.close c.inner s.inner).2).Tells (es ++ [.closed]) (n - 1) :=
    ⟨by simp [Store.close, Memory.close, Memory.note, h.events],
      congrArg (· - 1) h.connections, h.single⟩
  obtain ⟨fs, -, ⟨-, he⟩ | he⟩ := close_cases c s
  · exact ⟨_, _, he, (hm s.faults).struck⟩
  · exact ⟨_, _, he, hm fs⟩

/-- The journal only grows, whatever is called. -/
def journalMonitor : Monitor (Faulty Memory) where
  always s s' := s.inner.events.toList <+: s'.inner.events.toList
  smoothly _ _ := True
  always_refl _ := List.prefix_rfl
  always_trans h h' := h.trans h'
  smoothly_refl _ := trivial
  smoothly_trans _ _ := trivial
  connect s := by
    refine ⟨?_, fun _ _ => trivial⟩
    obtain ⟨fs, -, he | he⟩ := connect_cases s <;> rw [he]
    · exact List.prefix_rfl
    · simp only [Store.connect, Memory.connect, inner_passed]
      split <;> simp [Memory.note]
  prepare t c s := by
    refine ⟨?_, fun _ _ => trivial⟩
    obtain ⟨fs, -, he | he⟩ := prepare_cases t c s <;> rw [he]
    · exact List.prefix_rfl
    · simp [Store.prepare, Memory.prepare, Memory.note]
  addRow r c s := by
    refine ⟨?_, fun _ _ => trivial⟩
    obtain ⟨fs, -, he | he⟩ := addRow_cases r c s <;> rw [he]
    · exact List.prefix_rfl
    · simp only [Store.addRow, Memory.addRow, inner_passed]
      repeat' split
      all_goals exact List.prefix_rfl
  execute c s := by
    refine ⟨?_, fun _ _ => trivial⟩
    obtain ⟨fs, -, he | ⟨-, he⟩ | he⟩ := execute_cases c s <;> rw [he]
    · exact List.prefix_rfl
    · exact List.prefix_rfl
    · simp only [Store.execute, Memory.execute, inner_passed]
      repeat' split
      all_goals simp [Memory.note]
  commit c s := by
    refine ⟨?_, fun _ _ => trivial⟩
    obtain ⟨fs, -, he | he⟩ := commit_cases c s <;> rw [he]
    · exact List.prefix_rfl
    · simp only [Store.commit, Memory.commit, inner_passed]
      split <;> simp [Memory.note]
  rollback c s := by
    refine ⟨?_, fun _ _ => trivial⟩
    obtain ⟨fs, -, he | he⟩ := rollback_cases c s <;> rw [he]
    · exact List.prefix_rfl
    · simp [Store.rollback, Memory.rollback, Memory.note]
  close c s := by
    refine ⟨?_, fun _ _ => trivial⟩
    obtain ⟨fs, -, ⟨-, he⟩ | he⟩ := close_cases c s <;> rw [he] <;>
      simp [Store.close, Memory.close, Memory.note]

end Faulty
end MapLoader
