import MapLoader.Proofs.Load.Bookkeeping
import MapLoader.Proofs.Session.Connections

/-! A load does to its store only what its session does. So what every operation of a session
keeps, a load keeps; and since it ends by ending the last transaction, it leaves no connection
open. -/

namespace MapLoader

namespace Session

/-- A property of sessions that every operation keeps, however it ends. -/
structure Stable {σ κ : Type} [Store σ κ] (P : Session σ κ → Prop) : Prop where
  tell {s : Session σ κ} (n : Notice) : P s → P (s.tell n)
  beginBatch {s : Session σ κ} (t : Table) : P s → P (s.beginBatch t).2
  insert {s : Session σ κ} (b : Batch) : P s → P (s.insert b).2
  endBatch {s : Session σ κ} (commit : Bool) : P s → P (s.endBatch commit).2

theorem stable_lives : Stable Lives where
  tell n h := h.tell n
  beginBatch t h := lives_beginBatch h t
  insert b h := lives_insert h b
  endBatch commit h := lives_endBatch h commit

end Session

namespace Accumulator

variable {σ κ : Type} [Store σ κ] {P : Session σ κ → Prop}

theorem stable_begin (S : Session.Stable P) {a : Accumulator σ κ} (h : P a.session) (t : Table) :
    P (a.begin t).2.session := by
  have hb := S.beginBatch t h
  unfold begin
  split <;> rename_i hx <;> rw [hx] at hb
  · exact hb
  · exact S.beginBatch t (S.tell _ hb)
  · exact hb
  · exact hb

theorem stable_write (S : Session.Stable P) {a : Accumulator σ κ} (h : P a.session) (t : Table) :
    P (a.write t).2.session := by
  have hb := stable_begin S h t
  unfold write
  split <;> rename_i hx <;> rw [hx] at hb
  · exact hb
  · exact S.insert _ hb

theorem stable_commit (S : Session.Stable P) {a : Accumulator σ κ} (h : P a.session) (t : Table)
    (rows : Nat) : P (a.commit t rows).2.session := by
  have he := S.endBatch true h
  unfold commit
  split <;> rename_i hx <;> rw [hx] at he <;> exact S.tell _ he

theorem stable_flush (S : Session.Stable P) {a : Accumulator σ κ} (h : P a.session) (t : Table) :
    P (a.flush t).2.session := by
  have hw := stable_write S h t
  by_cases ht : a.buffered t = 0
  · rw [flush_empty ht]
    exact h
  · rcases hx : a.write t with ⟨e | rows, b⟩ <;> rw [hx] at hw
    · rw [flush_missed ht hx]
      exact S.tell _ hw
    · have hl : P (b.landed t (a.buffered t) rows).session := S.tell _ hw
      rw [flush_landed ht hx]
      split
      · exact stable_commit S hl t rows
      · exact hl

theorem invariant_stable (S : Session.Stable P) :
    Invariant fun _ _ (a : Accumulator σ κ) => P a.session where
  author _ h := h
  element _ h := h
  flush t h := stable_flush S h t

theorem stable_finish (S : Session.Stable P) {a : Accumulator σ κ} (h : P a.session) :
    P a.finish.2.session ∧ a.finish.2.session.live = none := by
  have hf : P a.flushAll.session :=
    @Invariant.flushes _ _ _ _ (invariant_stable S) [] [] a Table.all h
  have he := S.endBatch true hf
  have hl : (a.flushAll.session.endBatch true).2.live = none := Session.live_endBatch true _
  rcases hx : a.flushAll.session.endBatch true with ⟨e | _, s⟩ <;> rw [hx] at he hl
  · obtain ⟨t, -, hfin⟩ := finish_error hx
    rw [hfin]
    exact ⟨S.tell _ (S.tell _ he), hl⟩
  · rw [finish_ok hx]
    exact ⟨S.tell _ he, hl⟩

end Accumulator

/-- What every operation of a session keeps, a load keeps, and it leaves the session closed. -/
theorem stable_ingest {σ κ : Type} [Store σ κ] {P : Session σ κ → Prop} (S : Session.Stable P)
    (options : LoadOptions) {store : σ} (h : P { store }) (entities : List Entity) :
    P (ingest options store entities).2 ∧ (ingest options store entities).2.live = none := by
  have hd : P (Accumulator.drained options store entities).session :=
    @Accumulator.Invariant.drained _ _ _ _ (Accumulator.invariant_stable S) options store
      (fun _ _ _ _ h => h) (fun n h => S.tell n h) h entities
  have hfin := Accumulator.stable_finish S hd
  rw [ingest_eq]
  generalize (Accumulator.drained options store entities).finish = x at hfin ⊢
  exact hfin

/-- The protocol of connections holds after any calls to a session and under any faults, its
journal only grows, and ending a batch leaves nothing open however it ends. The same holds of an
accumulator after any calls, and nothing is open once it has finished, well or not; nor is after a
load. -/
theorem connections_live_in_turn (faults : List Fault) :
    (∀ calls : List Session.Call, let s := (Session.fresh faults).performAll calls
      s.Orderly ∧
        (∀ call, s.store.inner.events.toList <+: (s.perform call).2.store.inner.events.toList) ∧
        ∀ commit, (s.endBatch commit).2.Orderly ∧ (s.endBatch commit).2.live = none ∧
          (s.endBatch commit).2.store.inner.openConnections = 0) ∧
      (∀ (thresholds : Thresholds) (policy : CounterReset) (calls : List Accumulator.Call),
        let a := Accumulator.performAll calls (Accumulator.fresh faults thresholds policy)
        a.session.Orderly ∧ a.finish.2.session.Orderly ∧ a.finish.2.session.live = none ∧
          a.finish.2.session.store.inner.openConnections = 0) ∧
      ∀ (options : LoadOptions) (entities : List Entity),
        let s := (ingest options ({ faults, inner := {} } : Faulty Memory) entities).2
        s.Orderly ∧ s.live = none ∧ s.store.inner.openConnections = 0 := by
  refine ⟨fun calls => ?_, fun thresholds policy calls => ?_,
    fun options entities => ?_⟩
  · have h := Session.lives_performAll (Session.lives_fresh faults) calls
    generalize (Session.fresh faults).performAll calls = s at h ⊢
    refine ⟨h.orderly, Session.journal_perform s, fun commit => ?_⟩
    have he := Session.lives_endBatch h commit
    have hl := Session.live_endBatch commit s
    exact ⟨he.orderly, hl, he.released hl⟩
  · have h := @Accumulator.Invariant.performAll _ _ _ _
      (Accumulator.invariant_stable Session.stable_lives) [] []
      (Accumulator.fresh faults thresholds policy) calls (Session.lives_fresh faults)
    generalize Accumulator.performAll calls (Accumulator.fresh faults thresholds policy) = a
      at h ⊢
    obtain ⟨hf, hl⟩ := Accumulator.stable_finish Session.stable_lives h
    exact ⟨h.orderly, hf.orderly, hl, hf.released hl⟩
  · obtain ⟨h, hl⟩ :=
      stable_ingest Session.stable_lives options (Session.lives_fresh faults) entities
    exact ⟨h.orderly, hl, h.released hl⟩

end MapLoader
