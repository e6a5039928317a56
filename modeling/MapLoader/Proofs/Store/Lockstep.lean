import MapLoader.Proofs.Store.Monitor
import MapLoader.Session.Batch

/-! Two stores in lockstep: as long as the first has not gone astray, related states answer a call
alike and are related again. A store with faults is in lockstep with the same store without
them until a call is struck. -/

namespace MapLoader

/-- Unless the first call led astray, the second ends alike and in a related state. -/
def Tallies {σ σ' κ κ' ε α : Type} (astray : σ → Prop) (R : κ → κ' → σ → σ' → Prop)
    (x : Except ε α × κ × σ) (y : Except ε α × κ' × σ') : Prop :=
  ¬ astray x.2.2 → ∃ c' s', y = (x.1, c', s') ∧ R x.2.1 c' x.2.2 s'

structure Lockstep (σ σ' : Type) {κ κ' : Type} [Store σ κ] [Store σ' κ'] where
  monitor : Monitor σ
  astray : σ → Prop
  stays {s u : σ} : monitor.always s u → astray s → astray u
  /-- Relates the stores while no connection is open. -/
  apart : σ → σ' → Prop
  /-- Relates them together with a connection to each. -/
  linked : κ → κ' → σ → σ' → Prop
  /-- The same once the connections are prepared for a table. -/
  prepared : Table → κ → κ' → σ → σ' → Prop
  linked_of_prepared {t : Table} {c : κ} {c' : κ'} {s : σ} {s' : σ'} :
    prepared t c c' s s' → linked c c' s s'
  connect {s : σ} {s' : σ'} : apart s s' → ¬ astray (Store.connect s).2 →
    match Store.connect s with
    | (.ok c, u) => ∃ c' u', Store.connect s' = (.ok c', u') ∧ linked c c' u u'
    | (.error e, u) => ∃ u', Store.connect s' = (.error e, u') ∧ apart u u'
  prepare (t : Table) {c : κ} {c' : κ'} {s : σ} {s' : σ'} : linked c c' s s' →
    ¬ astray (Store.prepare t c s).2.2 →
    match Store.prepare t c s with
    | (.ok _, d, u) => ∃ d' u', Store.prepare t c' s' = (.ok (), d', u') ∧ prepared t d d' u u'
    | (.error e, d, u) => ∃ d' u', Store.prepare t c' s' = (.error e, d', u') ∧ linked d d' u u'
  addRow {b : Batch} {r : Row} {c : κ} {c' : κ'} {s : σ} {s' : σ'} : r ∈ b.rows →
    prepared b.table c c' s s' →
    Tallies astray (prepared b.table) (Store.addRow r c s) (Store.addRow r c' s')
  pending {t : Table} {c : κ} {c' : κ'} {s : σ} {s' : σ'} : prepared t c c' s s' →
    Store.pending σ c = Store.pending σ' c'
  clearBatch {t : Table} {c : κ} {c' : κ'} {s : σ} {s' : σ'} : prepared t c c' s s' →
    prepared t (Store.clearBatch σ c) (Store.clearBatch σ' c') s s'
  execute {t : Table} {c : κ} {c' : κ'} {s : σ} {s' : σ'} : prepared t c c' s s' →
    Tallies astray (prepared t) (Store.execute c s) (Store.execute c' s')
  commit {t : Table} {c : κ} {c' : κ'} {s : σ} {s' : σ'} : prepared t c c' s s' →
    Tallies astray (prepared t) (Store.commit c s) (Store.commit c' s')
  rollback {t : Table} {c : κ} {c' : κ'} {s : σ} {s' : σ'} : prepared t c c' s s' →
    Tallies astray (prepared t) (Store.rollback c s) (Store.rollback c' s')
  close {c : κ} {c' : κ'} {s : σ} {s' : σ'} : linked c c' s s' → ¬ astray (Store.close c s).2 →
    ∃ u', Store.close c' s' = ((Store.close c s).1, u') ∧ apart (Store.close c s).2 u'

namespace Faulty

variable {σ κ : Type} [Store σ κ]

/-- Beyond `n` strikes a store with faults has gone astray from the same store without them. -/
def lockstep (n : Nat) : Lockstep (Faulty σ) (Faulty σ) where
  monitor := monitor
  astray s := n < s.strikes
  stays h hs := Nat.lt_of_lt_of_le hs h.1
  apart s s' := n = s.strikes ∧ s' = s.calm
  linked c c' s s' := c' = c ∧ n = s.strikes ∧ s' = s.calm
  prepared _ c c' s s' := c' = c ∧ n = s.strikes ∧ s' = s.calm
  linked_of_prepared h := h
  connect {s s'} := by
    rintro ⟨hn, rfl⟩ ha
    obtain ⟨fs, -, h | h⟩ := connect_cases s
    · rw [h] at ha
      exact absurd (by simp [hn]) ha
    · rw [h]
      have hc : Store.connect s.calm = ((Store.connect s.inner).1.map fun c => { inner := c },
          s.calm.passed [] (Store.connect s.inner).2) := rfl
      rw [hc]
      cases (Store.connect s.inner).1 with
      | ok c => exact ⟨_, _, rfl, rfl, hn, rfl⟩
      | error e => exact ⟨_, rfl, hn, rfl⟩
  prepare t {c c' s s'} := by
    rintro ⟨rfl, hn, rfl⟩ ha
    obtain ⟨fs, -, h | h⟩ := prepare_cases t c' s
    · rw [h] at ha
      exact absurd (by simp [hn]) ha
    · rw [h]
      have hp : Store.prepare t c' s.calm = ((Store.prepare t c'.inner s.inner).1,
          ⟨some t, (Store.prepare t c'.inner s.inner).2.1⟩,
          s.calm.passed [] (Store.prepare t c'.inner s.inner).2.2) := rfl
      rw [hp]
      cases (Store.prepare t c'.inner s.inner).1 with
      | ok _ => exact ⟨_, _, rfl, rfl, hn, rfl⟩
      | error e => exact ⟨_, _, rfl, rfl, hn, rfl⟩
  addRow {b r c c' s s'} := by
    rintro - ⟨rfl, hn, rfl⟩ ha
    obtain ⟨fs, -, h | h⟩ := addRow_cases r c' s <;> rw [h] at ha ⊢
    · exact absurd (by simp [hn]) ha
    · exact ⟨_, _, rfl, rfl, hn, rfl⟩
  pending h := by rw [h.1]
  clearBatch h := ⟨by rw [h.1], h.2⟩
  execute {t c c' s s'} := by
    rintro ⟨rfl, hn, rfl⟩ ha
    obtain ⟨fs, -, h | ⟨-, h⟩ | h⟩ := execute_cases c' s <;> rw [h] at ha ⊢
    · exact absurd (by simp [hn]) ha
    · exact absurd (by simp [hn]) ha
    · exact ⟨_, _, rfl, rfl, hn, rfl⟩
  commit {t c c' s s'} := by
    rintro ⟨rfl, hn, rfl⟩ ha
    obtain ⟨fs, -, h | h⟩ := commit_cases c' s <;> rw [h] at ha ⊢
    · exact absurd (by simp [hn]) ha
    · exact ⟨_, _, rfl, rfl, hn, rfl⟩
  rollback {t c c' s s'} := by
    rintro ⟨rfl, hn, rfl⟩ ha
    obtain ⟨fs, -, h | h⟩ := rollback_cases c' s <;> rw [h] at ha ⊢
    · exact absurd (by simp [hn]) ha
    · exact ⟨_, _, rfl, rfl, hn, rfl⟩
  close {c c' s s'} := by
    rintro ⟨rfl, hn, rfl⟩ ha
    obtain ⟨fs, -, ⟨-, h⟩ | h⟩ := close_cases c' s <;> rw [h] at ha ⊢
    · exact absurd (by simp [hn]) ha
    · exact ⟨_, rfl, hn, rfl⟩

/-- Without faults a store answers as the store inside it does. -/
def bare : Lockstep (Faulty σ) σ where
  monitor := monitor
  astray _ := False
  stays _ h := h
  apart s x := s.faults = [] ∧ s.inner = x
  linked c k s x := c.inner = k ∧ s.faults = [] ∧ s.inner = x
  prepared _ c k s x := c.inner = k ∧ s.faults = [] ∧ s.inner = x
  linked_of_prepared h := h
  connect {s x} := by
    obtain ⟨_, n, x⟩ := s
    rintro ⟨rfl, rfl⟩ -
    have hc : Store.connect (⟨[], n, x⟩ : Faulty σ) =
        ((Store.connect x).1.map fun c => { inner := c }, ⟨[], n, (Store.connect x).2⟩) := rfl
    rw [hc]
    rcases Store.connect x with ⟨e | c, y⟩
    · exact ⟨_, rfl, rfl, rfl⟩
    · exact ⟨_, _, rfl, rfl, rfl, rfl⟩
  prepare t {c k s x} := by
    obtain ⟨_, n, x⟩ := s
    rintro ⟨rfl, rfl, rfl⟩ -
    have hp : Store.prepare t c (⟨[], n, x⟩ : Faulty σ) = ((Store.prepare t c.inner x).1,
        ⟨some t, (Store.prepare t c.inner x).2.1⟩, ⟨[], n, (Store.prepare t c.inner x).2.2⟩) := rfl
    rw [hp]
    rcases Store.prepare t c.inner x with ⟨e | _, k, y⟩
    · exact ⟨_, _, rfl, rfl, rfl, rfl⟩
    · exact ⟨_, _, rfl, rfl, rfl, rfl⟩
  addRow {b r c k s x} := by
    obtain ⟨_, n, x⟩ := s
    rintro - ⟨rfl, rfl, rfl⟩ -
    exact ⟨_, _, rfl, rfl, rfl, rfl⟩
  pending h := by
    rw [← h.1]
    rfl
  clearBatch h := ⟨by rw [← h.1]; rfl, h.2⟩
  execute {t c k s x} := by
    obtain ⟨_, n, x⟩ := s
    rintro ⟨rfl, rfl, rfl⟩ -
    exact ⟨_, _, rfl, rfl, rfl, rfl⟩
  commit {t c k s x} := by
    obtain ⟨_, n, x⟩ := s
    rintro ⟨rfl, rfl, rfl⟩ -
    exact ⟨_, _, rfl, rfl, rfl, rfl⟩
  rollback {t c k s x} := by
    obtain ⟨_, n, x⟩ := s
    rintro ⟨rfl, rfl, rfl⟩ -
    exact ⟨_, _, rfl, rfl, rfl, rfl⟩
  close {c k s x} := by
    obtain ⟨_, n, x⟩ := s
    rintro ⟨rfl, rfl, rfl⟩ -
    exact ⟨_, rfl, rfl, rfl⟩

end Faulty
end MapLoader
