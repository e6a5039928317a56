import MapLoader.Proofs.Session.Monitor
import MapLoader.Proofs.Store.Lockstep

/-! Sessions over two stores in lockstep. From related sessions an operation ends alike and in
related sessions again, unless the first store goes astray inside it. -/

namespace MapLoader

namespace Lockstep

variable {σ σ' κ κ' α : Type} [Store σ κ] [Store σ' κ'] (L : Lockstep σ σ')

/-- Sessions that have told the same and are in the same state over related stores. -/
inductive Sessions : Session σ κ → Session σ' κ' → Prop
  | closed {s : σ} {s' : σ'} (log : Array Notice) (h : L.apart s s') :
    Sessions ⟨s, none, log⟩ ⟨s', none, log⟩
  | live {t : Table} {c : κ} {c' : κ'} {s : σ} {s' : σ'} (log : Array Notice)
    (h : L.prepared t c c' s s') : Sessions ⟨s, some ⟨t, c⟩, log⟩ ⟨s', some ⟨t, c'⟩, log⟩

/-- Unless the first operation led astray, the second ended alike and in a related session. -/
def Agrees (x : α × Session σ κ) (y : α × Session σ' κ') : Prop :=
  ¬ L.astray x.2.store → ∃ u, y = (x.1, u) ∧ L.Sessions x.2 u

variable {L}

theorem Sessions.tell {s : Session σ κ} {s' : Session σ' κ'} (h : L.Sessions s s') (n : Notice) :
    L.Sessions (s.tell n) (s'.tell n) := by
  cases h with
  | closed log h => exact .closed _ h
  | live log h => exact .live _ h

theorem Sessions.openTable?_eq {s : Session σ κ} {s' : Session σ' κ'} (h : L.Sessions s s') :
    s'.openTable? = s.openTable? := by
  cases h <;> rfl

theorem not_astray {s u : σ} (h : L.monitor.always s u) (hu : ¬ L.astray u) : ¬ L.astray s :=
  fun hs => hu (L.stays h hs)

theorem Agrees.map {β : Type} {x : α × Session σ κ} {y : α × Session σ' κ'}
    (h : L.Agrees x y) (f : α → β) : L.Agrees (f x.1, x.2) (f y.1, y.2) := by
  intro hx
  obtain ⟨u, rfl, hu⟩ := h hx
  exact ⟨u, rfl, hu⟩

end Lockstep

namespace Session

open Lockstep

variable {σ σ' κ κ' : Type} [Store σ κ] [Store σ' κ'] {L : Lockstep σ σ'}

theorem agrees_openFor (t : Table) {s : σ} {s' : σ'} (h : L.apart s s') (log : Array Notice) :
    L.Agrees (openFor t ⟨s, none, log⟩) (openFor t ⟨s', none, log⟩) := by
  intro hf
  have h₁ := L.connect h
  unfold openFor at hf ⊢
  dsimp only at hf ⊢
  split at hf <;> rename_i hc <;> rw [hc] at h₁
  · obtain ⟨u', hc', ha⟩ := h₁ hf
    rw [hc']
    exact ⟨_, rfl, .closed _ ha⟩
  · rename_i c u
    have hp := L.monitor.prepare t c u
    have h₂ := fun c' u' (hl : L.linked c c' u u') => L.prepare t hl
    split at hf <;> rename_i hq <;> rw [hq] at hp h₂
    · obtain ⟨c', u', hc', hl⟩ := h₁ (not_astray hp.always hf)
      obtain ⟨d', v', hp', ha⟩ := h₂ c' u' hl hf
      simp only [hc', hp']
      exact ⟨_, rfl, .live _ ha⟩
    · rename_i e d v
      have hk := L.monitor.close d v
      have h₃ := fun d' v' (hl : L.linked d d' v v') => L.close hl
      split at hf <;> rename_i hr <;> rw [hr] at hk h₃ <;>
        have hv := not_astray hk.always hf <;>
        obtain ⟨c', u', hc', hl⟩ := h₁ (not_astray hp.always hv) <;>
        obtain ⟨d', v', hp', hl'⟩ := h₂ c' u' hl hv <;>
        obtain ⟨w', hr', ha⟩ := h₃ d' v' hl' hf <;>
        simp only [hc', hp', hr']
      · exact ⟨_, rfl, .closed _ ha⟩
      · exact ⟨_, rfl, .closed _ ha⟩

theorem tallies_commitPending {t : Table} {c : κ} {c' : κ'} {s : σ} {s' : σ'}
    (h : L.prepared t c c' s s') :
    Tallies L.astray (L.prepared t) (commitPending c s) (commitPending c' s') := by
  unfold commitPending
  rw [← L.pending h]
  split
  · have h₁ := L.execute h
    rcases he : Store.execute c s with ⟨_ | _, d, u⟩ <;> rw [he] at h₁ <;> intro hf
    · obtain ⟨d', u', he', ha⟩ := h₁ hf
      rw [he']
      exact ⟨d', u', rfl, ha⟩
    · obtain ⟨d', u', he', ha⟩ := h₁ (not_astray (L.monitor.commit d u).always hf)
      rw [he']
      exact L.commit ha hf
  · exact L.commit h

/-- The log is related as well because the outcomes of rolling back are the same. -/
theorem agrees_rollbackFailed {t : Table} {c : κ} {c' : κ'} {s : σ} {s' : σ'} (e : StoreError)
    (log : Array Notice) (h : L.prepared t c c' s s')
    (hf : ¬ L.astray (rollbackFailed t e c ⟨s, none, log⟩).2.store) :
    ∃ d d' u u' log', rollbackFailed t e c ⟨s, none, log⟩ = (d, ⟨u, none, log'⟩) ∧
      rollbackFailed t e c' ⟨s', none, log⟩ = (d', ⟨u', none, log'⟩) ∧ L.linked d d' u u' := by
  have h₁ := L.rollback h
  unfold rollbackFailed at hf ⊢
  simp only [tell] at hf ⊢
  rcases hr : Store.rollback c s with ⟨_ | _, d, u⟩ <;> rw [hr] at h₁ hf <;>
    obtain ⟨d', u', hr', ha⟩ := h₁ hf <;> rw [hr']
  · exact ⟨d, d', u, u', _, rfl, rfl, L.linked_of_prepared ha⟩
  · exact ⟨d, d', u, u', _, rfl, rfl, L.linked_of_prepared ha⟩

theorem agrees_release (t : Table) (outcome : Except StoreError Unit) {c : κ} {c' : κ'} {s : σ}
    {s' : σ'} (h : L.linked c c' s s') (log : Array Notice) :
    L.Agrees (release t outcome c ⟨s, none, log⟩) (release t outcome c' ⟨s', none, log⟩) := by
  have h₁ := L.close h
  unfold release
  cases outcome with
  | ok _ =>
    intro hf
    obtain ⟨u', hc, ha⟩ := h₁ hf
    rw [hc]
    exact ⟨_, rfl, .closed _ ha⟩
  | error e =>
    rcases hc : Store.close c s with ⟨_ | _, u⟩ <;> rw [hc] at h₁ <;> intro hf <;>
      obtain ⟨u', hc', ha⟩ := h₁ hf <;> rw [hc']
    · exact ⟨_, rfl, .closed _ ha⟩
    · exact ⟨_, rfl, .closed _ ha⟩

theorem agrees_endTransaction (commit : Bool) {s : Session σ κ} {s' : Session σ' κ'}
    (h : L.Sessions s s') : L.Agrees (s.endTransaction commit) (s'.endTransaction commit) := by
  cases h with
  | closed log h => exact fun _ => ⟨_, rfl, .closed log h⟩
  | @live t c c' s s' log h =>
    unfold endTransaction
    dsimp only
    cases commit with
    | true =>
      rw [if_pos rfl, if_pos rfl]
      have h₁ := tallies_commitPending h
      rcases hc : commitPending c s with ⟨e | _, d, u⟩ <;> rw [hc] at h₁ <;> intro hf
      · -- Nothing that follows leads back from astray, so the commit went alike on both sides.
        have hr := not_astray (sees_release L.monitor t (rollbackFailed t e d ⟨u, none, log⟩).1
          (Monitor.sees_error (e := e) (L.monitor.always_refl _))).always hf
        obtain ⟨d', u', hc', ha⟩ := h₁ (not_astray
          (always_rollbackFailed L.monitor t e d ⟨u, none, log⟩) hr)
        obtain ⟨f, f', v, v', log', hv, hv', hl⟩ := agrees_rollbackFailed e log ha hr
        rw [hc']
        simp only [hv, hv'] at hf ⊢
        exact agrees_release t (.error e) hl log' hf
      · obtain ⟨d', u', hc', ha⟩ := h₁ (not_astray
          (sees_release L.monitor t d (Monitor.sees_ok () u)).always hf)
        rw [hc']
        exact agrees_release t (.ok ()) (L.linked_of_prepared ha) log hf
    | false =>
      have h₁ := L.rollback h
      rcases hr : Store.rollback c s with ⟨o, d, u⟩
      rw [hr] at h₁
      intro hf
      have ho : L.monitor.Sees o u u :=
        ⟨L.monitor.always_refl u, fun _ _ => L.monitor.smoothly_refl u⟩
      have hs := sees_release L.monitor t d (s := ⟨u, none, log⟩) ho
      obtain ⟨d', u', hr', ha⟩ := h₁ (not_astray hs.always hf)
      simp only [hr', Bool.false_eq_true, if_false]
      exact agrees_release t o (L.linked_of_prepared ha) log hf

theorem agrees_openFresh (t : Table) {s : σ} {s' : σ'} (h : L.apart s s') (log : Array Notice) :
    L.Agrees (openFresh t ⟨s, none, log⟩) (openFresh t ⟨s', none, log⟩) :=
  (agrees_openFor t h log).map fun o =>
    (o.mapError SessionError.connection).map fun _ => ({} : BatchStart)

theorem agrees_switchTo (t : Table) {s : Session σ κ} {s' : Session σ' κ'}
    (h : L.Sessions s s') : L.Agrees (s.switchTo t) (s'.switchTo t) := by
  unfold switchTo
  rw [h.openTable?_eq]
  cases ho : s.openTable? with
  | none =>
    cases h with
    | closed log h => exact agrees_openFresh t h log
    | live log h => simp [openTable?] at ho
  | some previous =>
    dsimp only
    have h₁ := agrees_endTransaction true h
    have hn := live_endTransaction true s
    rcases he : s.endTransaction true with ⟨e | _, u⟩ <;> rw [he] at h₁ hn
    · intro hf
      obtain ⟨u', he', hu⟩ := h₁ hf
      rw [he']
      exact ⟨u', rfl, hu⟩
    · -- Only an end that went alike on both sides leaves both sessions closed for the opening.
      have hs := sees_openFor L.monitor t (u.tell (.switched previous t))
      have hq : ¬ L.astray (openFor t (u.tell (.switched previous t))).2.store →
          ∃ u', s'.endTransaction true = (.ok (), u') ∧
            L.Agrees (openFor t (u.tell (.switched previous t)))
              (openFor t (u'.tell (.switched previous t))) := by
        intro hf
        obtain ⟨u', he', hu⟩ := h₁ (not_astray hs.always hf)
        cases hu with
        | closed log h => exact ⟨_, he', agrees_openFor t h _⟩
        | live log h => simp at hn
      dsimp only
      rcases ho : openFor t (u.tell (.switched previous t)) with ⟨e | _, v⟩ <;> rw [ho] at hq <;>
        intro hf <;> obtain ⟨u', he', ha⟩ := hq hf <;> obtain ⟨v', ho', hv⟩ := ha hf <;>
        rw [he'] <;> dsimp only <;> rw [ho']
      · exact ⟨v', rfl, hv⟩
      · exact ⟨v', rfl, hv⟩

theorem agrees_beginBatch (t : Table) {s : Session σ κ} {s' : Session σ' κ'}
    (h : L.Sessions s s') : L.Agrees (s.beginBatch t) (s'.beginBatch t) := by
  unfold beginBatch
  rw [h.openTable?_eq]
  cases h with
  | closed log h => exact agrees_openFresh t h log
  | @live p c c' s s' log h =>
    dsimp only [openTable?, Option.map]
    split
    · exact fun _ => ⟨_, rfl, .live log h⟩
    · exact agrees_switchTo t (.live log h)

theorem agrees_endBatch (commit : Bool) {s : Session σ κ} {s' : Session σ' κ'}
    (h : L.Sessions s s') : L.Agrees (s.endBatch commit) (s'.endBatch commit) :=
  (agrees_endTransaction commit h).map fun o => o.mapError SessionError.connection

theorem tallies_bindAll {b : Batch} {bs : List Binding} (hb : ∀ x ∈ bs, x.row ∈ b.rows)
    {c : κ} {c' : κ'} {s : σ} {s' : σ'} (h : L.prepared b.table c c' s s') (log : Array Notice)
    (hf : ¬ L.astray (bindAll bs c s log).2.2.1) :
    ∃ o d d' u u' log', bindAll bs c s log = (o, d, u, log') ∧
      bindAll bs c' s' log = (o, d', u', log') ∧ L.prepared b.table d d' u u' := by
  induction bs generalizing c c' s s' log with
  | nil => exact ⟨_, _, _, _, _, _, rfl, rfl, h⟩
  | cons x rest ih =>
    have h₁ := L.addRow (hb x (by simp)) h
    have hr := fun c s log => sees_bindAll L.monitor rest c s log
    unfold bindAll at hf ⊢
    dsimp only at hf ⊢
    rcases ha : Store.addRow x.row c s with ⟨e | _, d, u⟩ <;> rw [ha] at h₁ hf
    · obtain ⟨d', u', ha', hp⟩ := h₁ hf
      rw [ha']
      exact ⟨_, _, _, _, _, _, rfl, rfl, hp⟩
    · obtain ⟨d', u', ha', hp⟩ := h₁ (not_astray (hr _ _ _).always hf)
      rw [ha']
      exact ih (fun y hy => hb y (by simp [hy])) hp _ hf

theorem agrees_insert (b : Batch) {s : Session σ κ} {s' : Session σ' κ'}
    (h : L.Sessions s s') : L.Agrees (s.insert b) (s'.insert b) := by
  unfold insert
  cases h with
  | closed log h => exact fun _ => ⟨_, rfl, .closed log h⟩
  | @live p c c' s s' log h =>
    dsimp only
    split
    · rename_i hp
      subst hp
      have hb : ∀ x ∈ b.bindings, x.row ∈ b.rows := fun x hx => List.mem_map_of_mem hx
      have h₁ := tallies_bindAll hb h log
      rcases hx : bindAll b.bindings c s log with ⟨e | _, d, u, log₁⟩ <;> rw [hx] at h₁ <;>
        intro hf
      · obtain ⟨o, f, f', v, v', log', hv, hv', ha⟩ := h₁ hf
        simp only [Prod.mk.injEq] at hv
        obtain ⟨rfl, rfl, rfl, rfl⟩ := hv
        rw [hv']
        exact ⟨_, rfl, .live _ (L.clearBatch ha)⟩
      · obtain ⟨o, f, f', v, v', log', hv, hv', ha⟩ :=
          h₁ (not_astray (L.monitor.execute d u).always hf)
        simp only [Prod.mk.injEq] at hv
        obtain ⟨rfl, rfl, rfl, rfl⟩ := hv
        obtain ⟨g', w', he, hw⟩ := L.execute ha hf
        rw [hv']
        dsimp only
        rw [he]
        exact ⟨_, rfl, .live _ hw⟩
    · exact fun _ => ⟨_, rfl, .live log h⟩

end Session
end MapLoader
