import MapLoader.Proofs.Load.Moves
import MapLoader.Proofs.Session.Monitor

/-! What a monitor of the store sees across a load. A load goes on after a failure, but it counts
it: unless a failure was counted, or finishing failed, every call to the store succeeded. -/

namespace MapLoader

namespace PerTable

@[simp] theorem total_modify (m : PerTable Nat) (t : Table) :
    (m.modify t (· + 1)).total = m.total + 1 := by
  cases t <;> simp [total, toList, Table.all, modify, set, get] <;> omega

end PerTable

namespace Report

@[simp] theorem failures_recordFailedFlush (r : Report) (t : Table) :
    (r.recordFailedFlush t).failures = r.failures + 1 := by
  simp [failures, recordFailedFlush]; omega

@[simp] theorem failures_recordFailedCommit (r : Report) (t : Table) :
    (r.recordFailedCommit t).failures = r.failures + 1 := by
  simp [failures, recordFailedCommit]; omega

@[simp] theorem failures_recordWritten (r : Report) (t : Table) (n : Nat) :
    (r.recordWritten t n).failures = r.failures := rfl

@[simp] theorem failures_recordProcessed (r : Report) (k : ElementKind) :
    (r.recordProcessed k).failures = r.failures := rfl

@[simp] theorem failures_recordSkipped (r : Report) (k : ElementKind) :
    (r.recordSkipped k).failures = r.failures := rfl

theorem isComplete_iff (r : Report) : r.isComplete = true ↔ r.failures = 0 := by
  simp [isComplete, failures]

end Report

namespace Accumulator

variable {σ κ : Type} [Store σ κ]

/-- The first relation holds, and the second too unless a failure was counted; that is, if the
condition holds that says what else may have gone wrong. -/
structure Attended (M : Monitor σ) (p : Prop) (a b : Accumulator σ κ) : Prop where
  always : M.always a.session.store b.session.store
  failures_le : a.report.failures ≤ b.report.failures
  smoothly : p → b.report.failures = a.report.failures → M.smoothly a.session.store b.session.store

theorem Attended.refl {M : Monitor σ} (p : Prop) (a : Accumulator σ κ) : Attended M p a a :=
  ⟨M.always_refl _, Nat.le_refl _, fun _ _ => M.smoothly_refl _⟩

theorem Attended.trans {M : Monitor σ} {p : Prop} {a b c : Accumulator σ κ}
    (h : Attended M True a b) (h' : Attended M p b c) : Attended M p a c := by
  refine ⟨M.always_trans h.always h'.always, Nat.le_trans h.failures_le h'.failures_le, ?_⟩
  intro hp hf
  have h₁ := h.failures_le
  have h₂ := h'.failures_le
  exact M.smoothly_trans (h.smoothly trivial (by omega)) (h'.smoothly hp (by omega))

/-- Nothing was done to the store, and no failure was counted. -/
theorem attended_of_eq {M : Monitor σ} {a b : Accumulator σ κ}
    (h : b.session.store = a.session.store) (hf : b.report.failures = a.report.failures) :
    Attended M True a b :=
  ⟨h ▸ M.always_refl _, Nat.le_of_eq hf.symm, fun _ _ => h ▸ M.smoothly_refl _⟩

theorem attended_of_lt {M : Monitor σ} {p : Prop} {a b : Accumulator σ κ}
    (h : M.always a.session.store b.session.store) (hf : a.report.failures < b.report.failures) :
    Attended M p a b :=
  ⟨h, Nat.le_of_lt hf, fun _ he => by omega⟩

variable (M : Monitor σ)

theorem attended_begin (t : Table) (a : Accumulator σ κ) :
    Attended M (∃ u, (a.begin t).1 = .ok u) a (a.begin t).2 := by
  have hb := Session.sees_beginBatch M t a.session
  unfold begin
  split <;> rename_i h <;> rw [h] at hb
  · exact ⟨hb.always, Nat.le_refl _, fun _ _ => hb.smoothly _ rfl⟩
  · rename_i previous next source session
    have hr := Session.sees_beginBatch M t (session.tell (.switchCommitFailed previous t
      ((a.report.recordFailedCommit previous).failedCommits.get previous) source))
    exact attended_of_lt (M.always_trans hb.always hr.always) (by simp)
  · exact ⟨hb.always, Nat.le_refl _, fun ⟨_, he⟩ => nomatch he⟩
  · exact ⟨hb.always, Nat.le_refl _, fun ⟨_, he⟩ => nomatch he⟩

theorem attended_write (t : Table) (a : Accumulator σ κ) :
    Attended M (∃ n, (a.write t).1 = .ok n) a (a.write t).2 := by
  have hb := attended_begin M t a
  unfold write
  split <;> rename_i h <;> rw [h] at hb
  · exact ⟨hb.always, hb.failures_le, fun ⟨_, he⟩ => nomatch he⟩
  · rename_i b
    have hi := Session.sees_insert M (b.buffers.batch t) b.session
    exact ⟨M.always_trans hb.always hi.always, hb.failures_le,
      fun ⟨_, he⟩ hf => M.smoothly_trans (hb.smoothly ⟨_, rfl⟩ hf) (hi.smoothly _ he)⟩

theorem attended_commit (t : Table) (rows : Nat) (a : Accumulator σ κ) :
    Attended M True a (a.commit t rows).2 := by
  have he := Session.sees_endBatch M true a.session
  unfold commit
  split <;> rename_i h <;> rw [h] at he
  · exact ⟨he.always, Nat.le_refl _, fun _ _ => he.smoothly _ rfl⟩
  · exact attended_of_lt he.always (by simp)

theorem attended_flush (t : Table) (a : Accumulator σ κ) : Attended M True a (a.flush t).2 := by
  have hw := attended_write M t a
  by_cases ht : a.buffered t = 0
  · rw [flush_empty ht]
    exact .refl True a
  · rcases h : a.write t with ⟨e | rows, b⟩ <;> rw [h] at hw
    · rw [flush_missed ht h]
      have hf := Nat.lt_succ_of_le hw.failures_le
      exact attended_of_lt hw.always (by simpa [missed, tell] using hf)
    · have hb : Attended M True a (b.landed t (a.buffered t) rows) :=
        ⟨hw.always, hw.failures_le, fun _ => hw.smoothly ⟨_, rfl⟩⟩
      rw [flush_landed ht h]
      split
      · exact hb.trans (attended_commit M t rows _)
      · exact hb

theorem attended_flushes (ts : List Table) (a : Accumulator σ κ) :
    Attended M True a (a.flushes ts) := by
  induction ts generalizing a with
  | nil => exact .refl True a
  | cons t ts ih => exact (attended_flush M t a).trans (ih _)

theorem attended_addUser (u : User) (a : Accumulator σ κ) :
    Attended M True a (a.addUser u) := by
  have h : Attended M True a (a.author u) := attended_of_eq rfl rfl
  rw [addUser_eq]
  exact h.trans (attended_flushes M _ _)

theorem attended_add (e : Entity) (a : Accumulator σ κ) : Attended M True a (a.add e) := by
  have h : Attended M True a (a.staged e) :=
    (attended_addUser M e.user a).trans (attended_of_eq rfl rfl)
  rw [add_eq]
  exact h.trans (attended_flushes M _ _)

theorem attended_dispatch (filter : ElementFilter) (e : Entity) (a : Accumulator σ κ) :
    Attended M True a (a.dispatch filter e) := by
  unfold dispatch
  split
  · have h : Attended M True a { a with report := a.report.recordProcessed e.kind } :=
      attended_of_eq rfl rfl
    exact h.trans (attended_add M e _)
  · exact attended_of_eq rfl rfl

theorem attended_dispatchAll (filter : ElementFilter) (es : List Entity) (a : Accumulator σ κ) :
    Attended M True a (es.foldl (dispatch filter) a) := by
  induction es generalizing a with
  | nil => exact .refl True a
  | cons e es ih => exact (attended_dispatch M filter e a).trans (ih _)

/-- What finishing does once all buffers are flushed. -/
theorem attended_ending (a : Accumulator σ κ) :
    Attended M (∃ r, a.finish.1 = .ok r) a.flushAll a.finish.2 := by
  have he := Session.sees_endBatch M true a.flushAll.session
  rcases h : a.flushAll.session.endBatch true with ⟨e | _, s⟩ <;> rw [h] at he
  · obtain ⟨t, -, hfin⟩ := finish_error h
    rw [hfin]
    generalize a.flushAll = b at he ⊢
    exact attended_of_lt he.always (by simp [tell])
  · rw [finish_ok h]
    generalize a.flushAll = b at he ⊢
    exact ⟨he.always, Nat.le_refl _, fun _ _ => he.smoothly _ rfl⟩

theorem attended_finish (a : Accumulator σ κ) :
    Attended M (∃ r, a.finish.1 = .ok r) a a.finish.2 := by
  have hf : Attended M True a a.flushAll := attended_flushes M Table.all a
  have he := attended_ending M a
  generalize a.flushAll = b at hf he
  exact hf.trans he

/-- Only a commit that fails is counted after the last flush. -/
theorem report_flushAll {a : Accumulator σ κ} {r : Report} (h : a.finish.1 = .ok r) :
    a.flushAll.report = r ∧ a.finish.2.report = a.flushAll.report := by
  rcases he : a.flushAll.session.endBatch true with ⟨e | _, s⟩
  · obtain ⟨t, -, hfin⟩ := finish_error he
    simp [hfin] at h
  · rw [finish_ok he] at h ⊢
    generalize a.flushAll = b at h ⊢
    exact ⟨Except.ok.inj h, rfl⟩

theorem report_finish {a : Accumulator σ κ} {r : Report} (h : a.finish.1 = .ok r) :
    a.finish.2.report = r := (report_flushAll h).2.trans (report_flushAll h).1

end Accumulator

/-- If a load reports success and no failure, every call to the store succeeded. -/
theorem smoothly_ingest {σ κ : Type} [Store σ κ] (M : Monitor σ) (options : LoadOptions)
    (store : σ) (entities : List Entity) {report : Report}
    (h : (ingest options store entities).1 = .ok report) (hc : report.isComplete = true) :
    M.smoothly store (ingest options store entities).2.store := by
  have hd : Accumulator.Attended M True
      (.new store options.thresholds options.counterReset) (.drained options store entities) :=
    (Accumulator.attended_dispatchAll M options.filter entities _).trans
      (Accumulator.attended_of_eq rfl rfl)
  rw [ingest_eq] at h ⊢
  generalize Accumulator.drained options store entities = a at hd h ⊢
  dsimp only at h ⊢
  have hall := hd.trans (Accumulator.attended_finish M a)
  refine hall.smoothly ⟨report, h⟩ ?_
  rw [Accumulator.report_finish h, (report.isComplete_iff).1 hc]
  rfl

end MapLoader
