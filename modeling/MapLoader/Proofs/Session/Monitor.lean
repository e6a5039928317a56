import MapLoader.Proofs.Store.Monitor
import MapLoader.Session.Basic

/-! What a monitor of a store sees across the operations of a session. An operation keeps the
first relation however it ends, and the second if it succeeds: no failure of a call inside it
goes unreported. -/

namespace MapLoader

namespace Session

variable {σ κ : Type} [Store σ κ] (M : Monitor σ)

theorem sees_openFor (t : Table) (s : Session σ κ) :
    M.Sees (s.openFor t).1 s.store (s.openFor t).2.store := by
  have hc := M.connect s.store
  unfold openFor
  split <;> rename_i h <;> rw [h] at hc
  · exact Monitor.sees_error hc.always
  · rename_i c store
    have hp := M.prepare t c store
    split <;> rename_i h' <;> rw [h'] at hp
    · exact hc.andThen hp
    · rename_i c' store'
      have hl := M.close c' store'
      split <;> rename_i h'' <;> rw [h''] at hl <;>
        exact Monitor.sees_error (M.always_trans (M.always_trans hc.always hp.always) hl.always)

theorem sees_commitPending (c : κ) (store : σ) :
    M.Sees (commitPending c store).1 store (commitPending c store).2.2 := by
  have he := M.execute c store
  unfold commitPending
  split
  · split <;> rename_i h <;> rw [h] at he
    · exact he.andThen (M.commit _ _)
    · exact Monitor.sees_error he.always
  · exact M.commit c store

theorem always_rollbackFailed (t : Table) (e : StoreError) (c : κ) (s : Session σ κ) :
    M.always s.store (rollbackFailed t e c s).2.store := by
  have hr := M.rollback c (s.tell (.commitFailed t e)).store
  unfold rollbackFailed
  dsimp only
  split <;> rename_i h <;> rw [h] at hr <;> exact hr.always

/-- What was seen up to the end of a transaction is seen to the closing of its connection. -/
theorem sees_release (t : Table) {outcome : Except StoreError Unit} (c : κ) {s₀ : σ}
    {s : Session σ κ} (h : M.Sees outcome s₀ s.store) :
    M.Sees (release t outcome c s).1 s₀ (release t outcome c s).2.store := by
  have hl := M.close c s.store
  unfold release
  split <;> rename_i hc <;> rw [hc] at hl
  · exact h.andThen hl
  · exact Monitor.sees_error (M.always_trans h.always hl.always)
  · exact Monitor.sees_error (M.always_trans h.always hl.always)

theorem sees_endTransaction (commit : Bool) (s : Session σ κ) :
    M.Sees (s.endTransaction commit).1 s.store (s.endTransaction commit).2.store := by
  unfold endTransaction
  split
  · exact Monitor.sees_ok () s.store
  · rename_i t c _
    dsimp only
    split
    · have hc := sees_commitPending M c s.store
      split <;> rename_i h <;> rw [h] at hc
      · exact sees_release M t _ hc
      · rename_i e c' store
        have hr := always_rollbackFailed M t e c' { s with live := none, store }
        exact sees_release M t _ (Monitor.sees_error (M.always_trans hc.always hr))
    · exact sees_release M t _ (M.rollback c s.store)

theorem live_rollbackFailed (t : Table) (e : StoreError) (c : κ) (s : Session σ κ) :
    (rollbackFailed t e c s).2.live = s.live := by
  unfold rollbackFailed
  dsimp only
  split <;> rfl

theorem live_release (t : Table) (outcome : Except StoreError Unit) (c : κ) (s : Session σ κ) :
    (release t outcome c s).2.live = s.live := by
  unfold release
  split <;> rfl

/-- Ending a transaction leaves no connection open, whatever fails on the way. -/
theorem live_endTransaction (commit : Bool) (s : Session σ κ) :
    (s.endTransaction commit).2.live = none := by
  unfold endTransaction
  split
  · assumption
  · dsimp only
    split
    · split
      · rw [live_release]
      · rw [live_release, live_rollbackFailed]
    · rw [live_release]

theorem sees_openFresh (t : Table) (s : Session σ κ) :
    M.Sees (s.openFresh t).1 s.store (s.openFresh t).2.store :=
  ((sees_openFor M t s).mapError _).map _

theorem sees_switchTo (t : Table) (s : Session σ κ) :
    M.Sees (s.switchTo t).1 s.store (s.switchTo t).2.store := by
  unfold switchTo
  split
  · exact sees_openFresh M t s
  · rename_i previous _
    have he := sees_endTransaction M true s
    split <;> rename_i h <;> rw [h] at he
    · exact Monitor.sees_error he.always
    · rename_i s'
      have ho := sees_openFor M t (s'.tell (.switched previous t))
      split <;> rename_i h' <;> rw [h'] at ho
      · exact Monitor.sees_error (M.always_trans he.always ho.always)
      · exact ⟨M.always_trans he.always ho.always,
          fun _ _ => M.smoothly_trans (he.smoothly _ rfl) (ho.smoothly _ rfl)⟩

theorem sees_beginBatch (t : Table) (s : Session σ κ) :
    M.Sees (s.beginBatch t).1 s.store (s.beginBatch t).2.store := by
  unfold beginBatch
  split
  · exact sees_openFresh M t s
  · split
    · exact Monitor.sees_ok _ s.store
    · exact sees_switchTo M t s

theorem sees_endBatch (commit : Bool) (s : Session σ κ) :
    M.Sees (s.endBatch commit).1 s.store (s.endBatch commit).2.store :=
  (sees_endTransaction M commit s).mapError _

theorem sees_bindAll (bs : List Binding) (c : κ) (store : σ) (log : Array Notice) :
    M.Sees (bindAll bs c store log).1 store (bindAll bs c store log).2.2.1 := by
  induction bs generalizing c store log with
  | nil => exact Monitor.sees_ok () store
  | cons b rest ih =>
    have ha := M.addRow b.row c store
    rw [bindAll]
    split <;> rename_i h <;> rw [h] at ha
    · exact ha.andThen (ih _ _ _)
    · exact Monitor.sees_error ha.always

theorem sees_insert (b : Batch) (s : Session σ κ) :
    M.Sees (s.insert b).1 s.store (s.insert b).2.store := by
  unfold insert
  split
  · exact Monitor.sees_error (M.always_refl s.store)
  · rename_i t c _
    split
    · have hb := sees_bindAll M b.bindings c s.store s.log
      split <;> rename_i h <;> rw [h] at hb
      · exact Monitor.sees_error hb.always
      · exact (hb.andThen (M.execute _ _)).mapError _
    · exact Monitor.sees_error (M.always_refl s.store)

theorem always_abandon (s : Session σ κ) : M.always s.store s.abandon.store := by
  unfold abandon
  split
  · exact M.always_refl s.store
  · rename_i t _
    have he := sees_endBatch M false (s.tell (.discarding t))
    split <;> rename_i h <;> rw [h] at he <;> exact he.always

end Session
end MapLoader
