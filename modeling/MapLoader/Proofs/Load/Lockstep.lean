import MapLoader.Proofs.Load.Monitor
import MapLoader.Proofs.Session.Lockstep

/-! Loads into two stores in lockstep. They take the same decisions, end alike and leave related
sessions, unless the first store goes astray. So a load into a store with faults of which none
strikes is the load into the store without faults. -/

namespace MapLoader

namespace Lockstep

variable {σ σ' κ κ' α : Type} [Store σ κ] [Store σ' κ'] (L : Lockstep σ σ')

/-- Accumulators that differ at most in the stores behind their sessions. -/
inductive Accumulators : Accumulator σ κ → Accumulator σ' κ' → Prop
  | mk {s : Session σ κ} {s' : Session σ' κ'} (thresholds : Thresholds) (counters : Counters)
    (buffers : Buffers) (report : Report) (h : L.Sessions s s') :
    Accumulators ⟨s, thresholds, counters, buffers, report⟩
      ⟨s', thresholds, counters, buffers, report⟩

def Follows (x : α × Accumulator σ κ) (y : α × Accumulator σ' κ') : Prop :=
  ¬ L.astray x.2.session.store → ∃ u, y = (x.1, u) ∧ L.Accumulators x.2 u

variable {L}

theorem Accumulators.session {a : Accumulator σ κ} {a' : Accumulator σ' κ'}
    (h : L.Accumulators a a') : L.Sessions a.session a'.session := by
  cases h
  assumption

theorem Accumulators.buffers_eq {a : Accumulator σ κ} {a' : Accumulator σ' κ'}
    (h : L.Accumulators a a') : a'.buffers = a.buffers := by
  cases h
  rfl

theorem Accumulators.commitDue_iff {a : Accumulator σ κ} {a' : Accumulator σ' κ'}
    (h : L.Accumulators a a') {t : Table} : a'.CommitDue t ↔ a.CommitDue t := by
  cases h
  rfl

theorem Accumulators.tell {a : Accumulator σ κ} {a' : Accumulator σ' κ'}
    (h : L.Accumulators a a') (n : Notice) : L.Accumulators (a.tell n) (a'.tell n) := by
  obtain ⟨th, c, b, r, h⟩ := h
  exact ⟨th, c, b, r, h.tell n⟩

end Lockstep

namespace Accumulator

open Lockstep

variable {σ σ' κ κ' : Type} [Store σ κ] [Store σ' κ'] {L : Lockstep σ σ'}
variable {a : Accumulator σ κ} {a' : Accumulator σ' κ'}

theorem follows_begin (t : Table) (h : L.Accumulators a a') :
    L.Follows (a.begin t) (a'.begin t) := by
  obtain ⟨th, c, b, r, h⟩ := h
  rename_i s s'
  have h₁ := Session.agrees_beginBatch t h
  unfold begin
  dsimp only
  rcases hb : s.beginBatch t with ⟨e | start, u⟩ <;> rw [hb] at h₁
  · cases e with
    | switchCommit previous next source =>
      let n := Notice.switchCommitFailed previous t
        ((r.recordFailedCommit previous).failedCommits.get previous) source
      have hr := Session.sees_beginBatch L.monitor t (u.tell n)
      intro hf
      obtain ⟨u', hb', hu⟩ := h₁ (not_astray hr.always hf)
      obtain ⟨v', hv', hv⟩ := Session.agrees_beginBatch t (hu.tell n) hf
      rw [hb']
      dsimp only
      rw [hv']
      exact ⟨_, rfl, th, _, b, _, hv⟩
    | switchOpen _ _ _ | connection _ | illegalState _ _ | batch _ _ =>
      intro hf
      obtain ⟨u', hb', hu⟩ := h₁ hf
      rw [hb']
      exact ⟨_, rfl, th, _, b, r, hu⟩
  · intro hf
    obtain ⟨u', hb', hu⟩ := h₁ hf
    rw [hb']
    exact ⟨_, rfl, th, _, b, r, hu⟩

theorem follows_write (t : Table) (h : L.Accumulators a a') :
    L.Follows (a.write t) (a'.write t) := by
  have h₁ := follows_begin t h
  unfold write
  rcases hb : a.begin t with ⟨e | _, u⟩ <;> rw [hb] at h₁ <;> intro hf
  · obtain ⟨u', hb', hu⟩ := h₁ hf
    rw [hb']
    exact ⟨u', rfl, hu⟩
  · have hi := Session.sees_insert L.monitor (u.buffers.batch t) u.session
    obtain ⟨u', hb', hu⟩ := h₁ (not_astray hi.always hf)
    rw [hb']
    obtain ⟨th, c, b, r, hu⟩ := hu
    obtain ⟨v', hv', hv⟩ := Session.agrees_insert (b.batch t) hu hf
    dsimp only
    rw [hv']
    exact ⟨_, rfl, th, c, b, r, hv⟩

theorem follows_commit (t : Table) (rows : Nat) (h : L.Accumulators a a') :
    L.Follows (a.commit t rows) (a'.commit t rows) := by
  obtain ⟨th, c, b, r, h⟩ := h
  rename_i s s'
  have h₁ := Session.agrees_endBatch true h
  unfold commit
  dsimp only
  rcases he : s.endBatch true with ⟨e | _, u⟩ <;> rw [he] at h₁ <;> intro hf <;>
    obtain ⟨u', he', hu⟩ := h₁ hf <;> rw [he']
  · exact ⟨_, rfl, th, _, b, _, hu.tell _⟩
  · exact ⟨_, rfl, th, _, b, _, hu.tell _⟩

theorem landed_accumulators (t : Table) (entries rows : Nat) (h : L.Accumulators a a') :
    L.Accumulators (a.landed t entries rows) (a'.landed t entries rows) := by
  obtain ⟨th, c, b, r, h⟩ := h
  exact ⟨th, _, _, _, h.tell _⟩

theorem missed_accumulators (t : Table) (entries : Nat) (e : SessionError)
    (h : L.Accumulators a a') :
    L.Accumulators (a.missed t entries e) (a'.missed t entries e) := by
  obtain ⟨th, c, b, r, h⟩ := h
  exact ⟨th, _, _, _, h.tell _⟩

theorem follows_flush (t : Table) (h : L.Accumulators a a') :
    L.Follows (a.flush t) (a'.flush t) := by
  have h₁ := follows_write t h
  have hb : a'.buffered t = a.buffered t := congrArg (·.size t) h.buffers_eq
  by_cases ht : a.buffered t = 0
  · rw [flush_empty ht, flush_empty (hb.trans ht)]
    exact fun _ => ⟨_, rfl, h⟩
  · rcases hw : a.write t with ⟨e | rows, u⟩ <;> rw [hw] at h₁
    · rw [flush_missed ht hw]
      intro hf
      obtain ⟨u', hw', hu⟩ := h₁ hf
      rw [flush_missed (hb ▸ ht) hw', hb]
      exact ⟨_, rfl, missed_accumulators t _ e hu⟩
    · rw [flush_landed ht hw]
      by_cases hd : (u.landed t (a.buffered t) rows).CommitDue t
      · rw [if_pos hd]
        have hc := attended_commit L.monitor t rows (u.landed t (a.buffered t) rows)
        intro hf
        obtain ⟨u', hw', hu⟩ := h₁ (not_astray hc.always hf)
        have hl := landed_accumulators t (a.buffered t) rows hu
        rw [flush_landed (hb ▸ ht) hw', hb, if_pos (hl.commitDue_iff.2 hd)]
        exact follows_commit t rows hl hf
      · rw [if_neg hd]
        intro hf
        obtain ⟨u', hw', hu⟩ := h₁ hf
        have hl := landed_accumulators t (a.buffered t) rows hu
        rw [flush_landed (hb ▸ ht) hw', hb, if_neg (mt hl.commitDue_iff.1 hd)]
        exact ⟨_, rfl, hl⟩

end Accumulator

namespace Lockstep

variable {σ σ' κ κ' : Type} [Store σ κ] [Store σ' κ'] (L : Lockstep σ σ')

/-- Operations that keep accumulators related, and that no store comes back from once astray. -/
structure Tracks (f : Accumulator σ κ → Accumulator σ κ)
    (f' : Accumulator σ' κ' → Accumulator σ' κ') : Prop where
  always (a : Accumulator σ κ) : L.monitor.always a.session.store (f a).session.store
  follows {a : Accumulator σ κ} {a' : Accumulator σ' κ'} : L.Accumulators a a' →
    ¬ L.astray (f a).session.store → L.Accumulators (f a) (f' a')

namespace Tracks

variable {L} {f g : Accumulator σ κ → Accumulator σ κ}
variable {f' g' : Accumulator σ' κ' → Accumulator σ' κ'}

theorem comp (hg : L.Tracks g g') (hf : L.Tracks f f') :
    L.Tracks (fun a => g (f a)) (fun a => g' (f' a)) :=
  ⟨fun a => L.monitor.always_trans (hf.always a) (hg.always _),
    fun h hn => hg.follows (hf.follows h (not_astray (hg.always _) hn)) hn⟩

theorem buffers (g : Buffers → Buffers) :
    L.Tracks (fun a => { a with buffers := g a.buffers })
      (fun a => { a with buffers := g a.buffers }) := by
  refine ⟨fun a => L.monitor.always_refl _, fun h _ => ?_⟩
  obtain ⟨th, c, b, r, h⟩ := h
  exact ⟨th, c, g b, r, h⟩

theorem report (g : Report → Report) :
    L.Tracks (fun a => { a with report := g a.report })
      (fun a => { a with report := g a.report }) := by
  refine ⟨fun a => L.monitor.always_refl _, fun h _ => ?_⟩
  obtain ⟨th, c, b, r, h⟩ := h
  exact ⟨th, c, b, g r, h⟩

theorem tell (n : Notice) : L.Tracks (fun a => a.tell n) (fun a => a.tell n) :=
  ⟨fun _ => L.monitor.always_refl _, fun h _ => h.tell n⟩

/-- A decision made on buffers and thresholds is the same on both sides. -/
theorem ite (p : Thresholds → Buffers → Prop) [∀ h b, Decidable (p h b)]
    (hf : L.Tracks f f') (hg : L.Tracks g g') :
    L.Tracks (fun a => if p a.thresholds a.buffers then f a else g a)
      (fun a => if p a.thresholds a.buffers then f' a else g' a) := by
  constructor
  · intro a
    split
    · exact hf.always a
    · exact hg.always a
  · intro a a' h hn
    have hp : p a'.thresholds a'.buffers ↔ p a.thresholds a.buffers := by cases h; rfl
    by_cases hq : p a.thresholds a.buffers
    · simp only [if_pos hq, if_pos (hp.2 hq)] at hn ⊢
      exact hf.follows h hn
    · simp only [if_neg hq, if_neg (mt hp.1 hq)] at hn ⊢
      exact hg.follows h hn

theorem id : L.Tracks (fun a => a) (fun a => a) :=
  ⟨fun _ => L.monitor.always_refl _, fun h _ => h⟩

theorem foldl {α : Type} {f : Accumulator σ κ → α → Accumulator σ κ}
    {f' : Accumulator σ' κ' → α → Accumulator σ' κ'}
    (h : ∀ x, L.Tracks (f · x) (f' · x)) (xs : List α) :
    L.Tracks (fun a => xs.foldl f a) (fun a => xs.foldl f' a) := by
  induction xs with
  | nil => exact id
  | cons x xs ih => exact comp ih (h x)

theorem flush (t : Table) : L.Tracks (fun a => (a.flush t).2) (fun a => (a.flush t).2) := by
  refine ⟨fun a => (Accumulator.attended_flush L.monitor t a).always, fun h hn => ?_⟩
  obtain ⟨u, hu, hr⟩ := Accumulator.follows_flush t h hn
  rw [hu]
  exact hr

theorem flushIfFull (t : Table) : L.Tracks (·.flushIfFull t) (·.flushIfFull t) :=
  ite (fun h b => h.row ≤ b.size t) (flush t) id

theorem addUser (u : User) : L.Tracks (·.addUser u) (·.addUser u) :=
  ite (fun _ b => b.users.contains u.id) id (comp (flushIfFull .users) (buffers (·.addUser u)))

theorem add (e : Entity) : L.Tracks (·.add e) (·.add e) := by
  have hu := addUser (L := L) e.user
  cases e with
  | node n =>
    have h := (flushIfFull .nodes).comp ((buffers (·.addNode n)).comp hu)
    exact h
  | way w =>
    have h := (flushIfFull .ways).comp ((buffers (·.addWay w)).comp hu)
    have h' := (flushIfFull .wayNodes).comp h
    exact h'
  | relation r =>
    have h := (flushIfFull .relations).comp ((buffers (·.addRelation r)).comp hu)
    have h' := (flushIfFull .relationMembers).comp h
    exact h'

theorem dispatch (filter : ElementFilter) (e : Entity) :
    L.Tracks (·.dispatch filter e) (·.dispatch filter e) :=
  ite (fun _ _ => filter.includes e.kind) (comp (add e) (report (·.recordProcessed e.kind)))
    (report (·.recordSkipped e.kind))

end Tracks
end Lockstep

namespace Accumulator

open Lockstep

variable {σ σ' κ κ' : Type} [Store σ κ] [Store σ' κ'] {L : Lockstep σ σ'}

theorem follows_finish {a : Accumulator σ κ} {a' : Accumulator σ' κ'} (h : L.Accumulators a a') :
    L.Follows a.finish a'.finish := by
  have hall : L.Tracks (fun a => a.flushAll) (fun a => a.flushAll) := Tracks.foldl Tracks.flush _
  have hs := Session.sees_endBatch L.monitor true a.flushAll.session
  have hb : ¬ L.astray (a.flushAll.session.endBatch true).2.store →
      L.Accumulators a.flushAll a'.flushAll ∧ ∃ u, a'.flushAll.session.endBatch true =
        ((a.flushAll.session.endBatch true).1, u) ∧
          L.Sessions (a.flushAll.session.endBatch true).2 u := by
    intro hf
    have h₁ := hall.follows h (not_astray hs.always hf)
    exact ⟨h₁, Session.agrees_endBatch true h₁.session hf⟩
  rcases he : a.flushAll.session.endBatch true with ⟨e | _, s⟩ <;> rw [he] at hb
  · obtain ⟨t, ht, hfin⟩ := finish_error he
    rw [hfin]
    intro hf
    obtain ⟨h₁, s', he', hr⟩ := hb hf
    obtain ⟨t', ht', hfin'⟩ := finish_error he'
    rw [h₁.session.openTable?_eq, ht] at ht'
    cases ht'
    rw [hfin']
    generalize a.flushAll = b, a'.flushAll = b' at h₁ ⊢
    obtain ⟨th, c, b, r, -⟩ := h₁
    exact ⟨_, rfl, th, c, b, _, (hr.tell _).tell _⟩
  · rw [finish_ok he]
    intro hf
    obtain ⟨h₁, s', he', hr⟩ := hb hf
    rw [finish_ok he']
    generalize a.flushAll = b, a'.flushAll = b' at h₁ ⊢
    obtain ⟨th, c, b, r, -⟩ := h₁
    exact ⟨_, rfl, th, c, b, r, hr.tell _⟩

end Accumulator

theorem Lockstep.tracks_drained {σ σ' κ κ' : Type} [Store σ κ] [Store σ' κ'] (L : Lockstep σ σ')
    (options : LoadOptions) (entities : List Entity) {store : σ} {store' : σ'}
    (h : L.apart store store')
    (hf : ¬ L.astray (Accumulator.drained options store entities).session.store) :
    L.Accumulators (.drained options store entities) (.drained options store' entities) := by
  have hall := (Tracks.tell (L := L) .drained).comp
    (Tracks.foldl (fun e => Tracks.dispatch (L := L) options.filter e) entities)
  have hnew : L.Accumulators (.new store options.thresholds options.counterReset)
      (.new store' options.thresholds options.counterReset) := ⟨_, _, _, _, .closed _ h⟩
  exact hall.follows hnew hf

/-- Loads into stores in lockstep end alike, unless the first store goes astray. -/
theorem Lockstep.ingest {σ σ' κ κ' : Type} [Store σ κ] [Store σ' κ'] (L : Lockstep σ σ')
    (options : LoadOptions) (entities : List Entity) {store : σ} {store' : σ'}
    (h : L.apart store store') :
    L.Agrees (ingest options store entities) (ingest options store' entities) := by
  have hd := L.tracks_drained options entities h
  rw [ingest_eq, ingest_eq]
  generalize Accumulator.drained options store entities = a at hd ⊢
  generalize Accumulator.drained options store' entities = a' at hd ⊢
  have hs := (Accumulator.attended_finish L.monitor a).always
  have hfin := fun h₁ : L.Accumulators a a' => Accumulator.follows_finish h₁
  generalize a.finish = x at hs hfin ⊢
  obtain ⟨o, b⟩ := x
  intro hf
  obtain ⟨u, hu, hr⟩ := hfin (hd (not_astray hs hf)) hf
  rw [hu]
  exact ⟨u.session, rfl, hr.session⟩

/-- A store around another, which it is in lockstep with, ends a load like the store inside. -/
theorem ingest_inside {σ σ' κ κ' : Type} [Store σ κ] [Store σ' κ'] (L : Lockstep σ σ')
    (inside : σ → σ') (options : LoadOptions) (entities : List Entity) {store : σ} {store' : σ'}
    (hstart : L.apart store store') (hsound : ∀ s, ¬ L.astray s)
    (hapart : ∀ {s s'}, L.apart s s' → inside s = s')
    (hprepared : ∀ {t c c' s s'}, L.prepared t c c' s s' → inside s = s') :
    let x := ingest options store entities
    let y := ingest options store' entities
    x.1 = y.1 ∧ x.2.log = y.2.log ∧ inside x.2.store = y.2.store := by
  have hrun := L.ingest options entities hstart
  generalize ingest options store entities = x at hrun ⊢
  generalize ingest options store' entities = y at hrun ⊢
  obtain ⟨outcome, s⟩ := x
  obtain ⟨u, rfl, hsessions⟩ := hrun (hsound _)
  dsimp only at hsessions
  cases hsessions with
  | closed log h => exact ⟨rfl, rfl, hapart h⟩
  | live log h => exact ⟨rfl, rfl, hprepared h⟩

namespace Faulty

variable {σ κ : Type} [Store σ κ]

theorem sessions_lockstep {n : Nat} {s s' : Session (Faulty σ) (Connection κ)}
    (h : (lockstep n).Sessions s s') : s' = { s with store := s.store.calm } := by
  cases h with
  | closed log h => rw [h.2]
  | live log h => rw [h.1, h.2.2]

/-- A load during which no call is struck is the load without faults. -/
theorem ingest_calm (options : LoadOptions) (entities : List Entity) {store : Faulty σ}
    (h : (ingest options store entities).2.store.strikes = store.strikes) :
    ingest options store.calm entities = ((ingest options store entities).1,
      { (ingest options store entities).2 with
        store := (ingest options store entities).2.store.calm }) := by
  have hf : ¬ (lockstep store.strikes).astray (ingest options store entities).2.store := by
    rw [← h]
    exact Nat.lt_irrefl _
  obtain ⟨u, hu, hr⟩ := (lockstep store.strikes).ingest options entities ⟨rfl, rfl⟩ hf
  rw [hu, sessions_lockstep hr]

/-- A load into a store with no faults in front of it is the load into the store itself. -/
theorem ingest_bare (options : LoadOptions) (entities : List Entity) (store : σ) :
    let x := ingest options ({ inner := store } : Faulty σ) entities
    let y := ingest options store entities
    x.1 = y.1 ∧ x.2.log = y.2.log ∧ x.2.store.inner = y.2.store := by
  have hstart : (bare : Lockstep (Faulty σ) σ).apart { inner := store } store := ⟨rfl, rfl⟩
  exact ingest_inside bare Faulty.inner options entities hstart (fun _ => id) (fun h => h.2)
    fun h => h.2.2

end Faulty
end MapLoader
