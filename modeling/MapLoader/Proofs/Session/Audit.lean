import MapLoader.Proofs.Load.Connections
import MapLoader.Proofs.Session.Fate
import MapLoader.Proofs.Session.Lockstep
import MapLoader.Proofs.Store.Audit

/-! Sessions over an audited store. A transaction that could not be ended shows in the audit as a
commit or a close that failed. -/

namespace MapLoader

namespace Session

section

variable {σ κ : Type} [Store σ κ]

theorem notes_commitPending (c : κ) (a : Audited σ) :
    Audited.Notes (commitPending c a).1 (commitPending c a).2.2 := by
  have he : Audited.Notes (Store.execute c a).1 (Store.execute c a).2.2 := a.notes_after _ _
  unfold commitPending
  split
  · split <;> rename_i h <;> rw [h] at he
    · exact Audited.notes_after _ _ _
    · exact Audited.notes_error (he _ rfl)
  · exact Audited.notes_after _ _ _

theorem notes_release (t : Table) {outcome : Except StoreError Unit} (c : κ)
    {s : Session (Audited σ) κ} (h : Audited.Notes outcome s.store) :
    Audited.Notes (release t outcome c s).1 (release t outcome c s).2.store := by
  have hc : Audited.Notes (Store.close c s.store).1 (Store.close c s.store).2 :=
    s.store.notes_after _ _
  have hm := (Audited.monitor.close c s.store).always
  unfold release
  split <;> rename_i hx <;> rw [hx] at hc hm
  · exact hc
  · exact Audited.notes_error (hm.mem (h _ rfl))
  · exact Audited.notes_error (hm.mem (h _ rfl))

/-- If ending a transaction fails, it fails with an error of one of its calls. -/
theorem notes_endTransaction (commit : Bool) (s : Session (Audited σ) κ) :
    Audited.Notes (s.endTransaction commit).1 (s.endTransaction commit).2.store := by
  unfold endTransaction
  split
  · exact nofun
  · rename_i t c _
    dsimp only
    split
    · have hc := notes_commitPending c s.store
      split <;> rename_i hx <;> rw [hx] at hc
      · exact notes_release t _ nofun
      · rename_i e c' store
        have hr := always_rollbackFailed Audited.monitor t e c' { s with live := none, store }
        exact notes_release t _ (Audited.notes_error (hr.mem (hc _ rfl)))
    · exact notes_release t _ (s.store.notes_after _ _)

end

abbrev AuditedSession :=
  Session (Audited (Faulty Memory)) (Faulty.Connection Memory.Connection)

/-- The session goes in step with one over the store inside that keeps an account. -/
def Tracked (u : AuditedSession) : Prop :=
  ∃ s a, Audited.lockstep.Sessions u s ∧ s.Keeps [.executeKeep] a ∧ a.Fair

/-- A commit or a close has failed. -/
def Faulted (u : AuditedSession) : Prop :=
  ∃ e ∈ u.store.errors, e.operation = .commit ∨ e.operation = .close

variable {u v : AuditedSession}

theorem Faulted.mono (h : u.Faulted) (hm : Audited.monitor.always u.store v.store) : v.Faulted := by
  obtain ⟨e, he, ho⟩ := h
  exact ⟨e, hm.mem he, ho⟩

theorem stable_tracked : Stable Tracked where
  tell n := by
    rintro ⟨s, a, hl, hk, hf⟩
    exact ⟨_, a, hl.tell n, hk.tell n, hf⟩
  beginBatch t := by
    rintro ⟨s, a, hl, hk, hf⟩
    obtain ⟨s', he, hl'⟩ := agrees_beginBatch t hl id
    obtain ⟨b, hb, hf'⟩ := lasting_perform Account.lasting_fair (by simp) hk hf (.begin t)
    have hs : (s.perform (.begin t)).2 = s' := congrArg Prod.snd he
    exact ⟨s', b, hl', hs ▸ hb, hf'⟩
  insert x := by
    rintro ⟨s, a, hl, hk, hf⟩
    obtain ⟨s', he, hl'⟩ := agrees_insert x hl id
    obtain ⟨b, hb, hf'⟩ := lasting_perform Account.lasting_fair (by simp) hk hf (.insert x)
    have hs : (s.perform (.insert x)).2 = s' := congrArg Prod.snd he
    exact ⟨s', b, hl', hs ▸ hb, hf'⟩
  endBatch commit := by
    rintro ⟨s, a, hl, hk, hf⟩
    obtain ⟨s', he, hl'⟩ := agrees_endBatch commit hl id
    obtain ⟨b, hb, hf'⟩ := lasting_perform Account.lasting_fair (by simp) hk hf (.finish commit)
    have hs : (s.perform (.finish commit)).2 = s' := congrArg Prod.snd he
    exact ⟨s', b, hl', hs ▸ hb, hf'⟩

/-- A transaction that could not be ended for good failed in its commit or its close. -/
theorem faulted_endTransaction (h : u.Tracked) {e : StoreError}
    (he : (u.endTransaction true).1 = .error e) : (u.endTransaction true).2.Faulted := by
  refine ⟨e, notes_endTransaction true u e he, ?_⟩
  obtain ⟨s, a, hl, hk, -⟩ := h
  obtain ⟨s', hs, -⟩ := agrees_endTransaction true hl id
  have hs₁ : (s.endTransaction true).1 = .error e := by rw [hs, he]
  have ha : a.current ≠ none := fun ha => by
    have hn := (hk.released ha).1
    simp [endTransaction, hn] at hs₁
  obtain ⟨ho, -⟩ | ⟨-, ⟨ho, -⟩ | ⟨ho, -⟩⟩ := endTransaction_settles hk ha <;> rw [hs₁] at ho <;>
    cases ho
  · exact .inr rfl
  · exact .inl rfl

theorem faulted_beginBatch (h : u.Tracked) {t p n : Table} {e : StoreError}
    (he : (u.beginBatch t).1 = .error (.switchCommit p n e)) : (u.beginBatch t).2.Faulted := by
  have hfresh : (u.openFresh t).1 ≠ .error (.switchCommit p n e) := by
    unfold openFresh
    rcases u.openFor t with ⟨e' | _, v⟩ <;> exact nofun
  by_cases ht : u.openTable? = some t
  · rw [beginBatch_stays ht] at he
    cases he
  rw [beginBatch_eq_switchTo ht] at he ⊢
  have hf (e' : StoreError) := faulted_endTransaction h (e := e')
  unfold switchTo at he ⊢
  cases hp : u.openTable? with
  | none =>
    rw [hp] at he
    exact absurd he hfresh
  | some previous =>
    rw [hp] at he
    dsimp only at he ⊢
    rcases hx : u.endTransaction true with ⟨e' | _, v⟩ <;> rw [hx] at he hf
    · exact hf e' rfl
    · dsimp only at he
      generalize (v.tell (.switched previous t)).openFor t = y at he
      obtain ⟨e' | _, w⟩ := y <;> cases he

end Session
end MapLoader
