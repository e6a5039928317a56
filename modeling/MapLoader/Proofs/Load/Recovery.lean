import MapLoader.Proofs.Load.Exactness
import MapLoader.Proofs.Load.Reckoning
import MapLoader.Proofs.Session.Audit

/-! Failures do not outlast their cause. Whatever was struck before, finishing without another
strike commits all that was committed, open or waiting; and if no commit and no close failed, that
is everything that was added. -/

namespace MapLoader

namespace Buffers

/-- What is kept by id is written in ascending order of the ids. -/
structure Ascending (b : Buffers) : Prop where
  users : b.users.keys.Pairwise (· < ·) ∧
    (b.batch .users).rows = b.users.toList.map fun e =>
      [.integer e.1, .text (if e.2 = "" then "NO_NAME_FOUND" else e.2)]
  wayNodes : b.wayNodes.keys.Pairwise (· < ·) ∧
    (b.batch .wayNodes).rows = b.wayNodes.toList.flatMap wayListRows
  relationMembers : b.relationMembers.keys.Pairwise (· < ·) ∧
    (b.batch .relationMembers).rows = b.relationMembers.toList.flatMap memberListRows

theorem ascending (b : Buffers) : b.Ascending := by
  have hlt {α : Type} (m : SortedMap Int α) : m.keys.Pairwise (· < ·) :=
    m.pairwise_keys.imp fun h => Int.compare_eq_lt.1 h
  exact ⟨⟨hlt _, b.rows_batch_users⟩, ⟨hlt _, b.rows_batch_wayNodes⟩,
    ⟨hlt _, b.rows_batch_relationMembers⟩⟩

end Buffers

namespace Accumulator

section

variable {spared : List CallPoint} {a : FaultyAccumulator} {A : Account}

def rowsWith (A : Account) (a : FaultyAccumulator) (t : Table) : List Row :=
  A.held t ++ (a.buffers.batch t).rows

/-- A flush that meets no fault empties one buffer and loses nothing. -/
theorem flush_unstruck (h : a.session.Keeps spared A) (hk : .executeKeep ∈ spared) (t : Table)
    (hs : (a.flush t).2.session.store.strikes = a.session.store.strikes) :
    ∃ B, (a.flush t).2.session.Keeps spared B ∧
      rowsWith B (a.flush t).2 = rowsWith A a ∧
      ∀ u, (a.flush t).2.buffered u = if u = t then 0 else a.buffered u := by
  by_cases ht : a.buffered t = 0
  · rw [flush_empty ht]
    refine ⟨A, h, rfl, fun u => ?_⟩
    by_cases hu : u = t <;> simp [hu, ht]
  obtain ⟨⟨B, hB, he⟩, -⟩ := keeps_flush h hk ht
  obtain ⟨ho, hheld⟩ := he.held_eq (by rw [hs]; exact Nat.lt_irrefl _)
  have hb := (flush_frame t a ht).1
  rw [if_neg ho] at hb
  refine ⟨B, hB, funext fun u => ?_, fun u => ?_⟩
  · rw [rowsWith, rowsWith, hheld u, hb, Buffers.rows_batch_clear, Buffers.table_batch]
    by_cases hu : t = u
    · simp [hu]
    · simp [hu, Ne.symm hu]
  · rw [buffered, hb, Buffers.size_clear]
    rfl

theorem flushes_unstruck (h : a.session.Keeps spared A) (hk : .executeKeep ∈ spared)
    (ts : List Table) (hs : (a.flushes ts).session.store.strikes = a.session.store.strikes) :
    ∃ B, (a.flushes ts).session.Keeps spared B ∧ rowsWith B (a.flushes ts) = rowsWith A a ∧
      ∀ t, t ∈ ts ∨ a.buffered t = 0 → (a.flushes ts).buffered t = 0 := by
  induction ts generalizing a A with
  | nil => exact ⟨A, h, rfl, fun t ht => by simpa using ht⟩
  | cons t ts ih =>
    have hle := (attended_flush Faulty.monitor t a).always.1
    have hle' := (attended_flushes Faulty.monitor ts (a.flush t).2).always.1
    rw [flushes_cons] at hs ⊢
    have hz : (a.flush t).2.session.store.strikes = a.session.store.strikes :=
      Nat.le_antisymm (Nat.le_trans hle' (Nat.le_of_eq hs)) hle
    obtain ⟨B, hB, hrows, hempty⟩ := flush_unstruck h hk t hz
    obtain ⟨D, hD, hrows', hempty'⟩ := ih hB (hs.trans hz.symm)
    refine ⟨D, hD, hrows'.trans hrows, fun u hu => hempty' u ?_⟩
    rw [hempty u]
    by_cases hut : u = t
    · exact .inr (if_pos hut)
    · rw [if_neg hut]
      exact hu.imp_left fun hm => (List.mem_cons.1 hm).resolve_left hut

/-- Finishing without a strike commits everything that was committed, open or waiting. -/
theorem finish_unstruck (h : a.session.Keeps spared A) (hk : .executeKeep ∈ spared)
    (hs : a.finish.2.session.store.strikes = a.session.store.strikes) :
    (∃ report, a.finish.1 = .ok report) ∧ ∃ B, a.finish.2.session.Keeps spared B ∧
      B.current = none ∧ B.committed = rowsWith A a := by
  have hle := (attended_flushes Faulty.monitor Table.all a).always.1
  have hle' := (attended_ending Faulty.monitor a).always.1
  have hall := flushes_unstruck h hk Table.all
  rw [← flushAll_eq] at hle hall
  have hz : a.flushAll.session.store.strikes = a.session.store.strikes :=
    Nat.le_antisymm (Nat.le_trans hle' (Nat.le_of_eq hs)) hle
  obtain ⟨B, hB, hrows, hempty⟩ := hall hz
  obtain ⟨hok, D, hD, hn, hc, -⟩ := finish_calm hB (by rw [hs, hz]; exact Nat.lt_irrefl _)
  refine ⟨⟨_, hok⟩, D, hD, hn, ?_⟩
  rw [hc, ← hrows]
  funext t
  have hb : (a.flushAll.buffers.batch t).rows = [] :=
    Buffers.rows_batch_of_size (hempty t (.inl (Table.mem_all t)))
  rw [rowsWith, hb, List.append_nil]

end

/-- Unless a failed commit of its table was counted, the elements of a kind are committed, open or
waiting. -/
theorem rowsWith_elements {es : List Entity} {a : FaultyAccumulator} {A : Account}
    {counters : Counters} {xs : List Batch} (hc : Conserves es a)
    (hA : a.session.Keeps [.executeKeep] A)
    (hr : Books.Reckoned ⟨A, counters, a.report.written, a.report.failedCommits, xs⟩)
    {k : ElementKind} (hk : a.report.failedCommits.get k.table = 0) :
    rowsWith A a k.table = elementRows k es := by
  have hl : A.losses k.table = 0 := Nat.le_zero.1 (hk ▸ hr.charged k.table)
  have hheld : A.held k.table = A.executed k.table := hr.fair.held_eq hl
  rw [rowsWith, hheld, hc.store.1 k, hA.executed_eq]

abbrev AuditedAccumulator :=
  Accumulator (Audited (Faulty Memory)) (Faulty.Connection Memory.Connection)

def freshAudited (faults : List Fault) (thresholds : Thresholds) (policy : CounterReset) :
    AuditedAccumulator := .new { store := { faults, inner := {} } } thresholds policy

/-- A failed commit is counted only if a commit or a close failed. -/
structure Grounded (b : AuditedAccumulator) : Prop where
  tracked : b.session.Tracked
  grounds : (∀ t, b.report.failedCommits.get t = 0) ∨ b.session.Faulted

section

variable {b d : AuditedAccumulator}

/-- Without a new failed commit in the report the grounds stay what they were. -/
theorem Grounded.next (h : b.Grounded) (ht : d.session.Tracked)
    (hr : d.report.failedCommits = b.report.failedCommits)
    (hm : Audited.monitor.always b.session.store d.session.store) : d.Grounded :=
  ⟨ht, h.grounds.imp (fun h t => hr ▸ h t) (fun h => h.mono hm)⟩

theorem grounded_begin (h : b.Grounded) (t : Table) : (b.begin t).2.Grounded := by
  have ht := stable_begin Session.stable_tracked h.tracked t
  have hf (p n : Table) (e : StoreError) :=
    Session.faulted_beginBatch h.tracked (t := t) (p := p) (n := n) (e := e)
  have hm := (Session.sees_beginBatch Audited.monitor t b.session).always
  unfold begin at ht ⊢
  split at ht <;> rename_i hx <;> rw [hx] at hf hm
  · exact h.next ht rfl hm
  · rename_i previous next source s
    have hr := Session.sees_beginBatch Audited.monitor t (s.tell (.switchCommitFailed previous t
      ((b.report.recordFailedCommit previous).failedCommits.get previous) source))
    exact ⟨ht, .inr ((hf _ _ _ rfl).mono hr.always)⟩
  · exact h.next ht rfl hm
  · exact h.next ht rfl hm

theorem grounded_write (h : b.Grounded) (t : Table) : (b.write t).2.Grounded := by
  have hb := grounded_begin h t
  unfold write
  split <;> rename_i hx <;> rw [hx] at hb
  · exact hb
  · exact hb.next (Session.stable_tracked.insert _ hb.tracked) rfl
      (Session.sees_insert Audited.monitor _ _).always

theorem grounded_commit (h : b.Grounded) (t : Table) (rows : Nat) :
    (b.commit t rows).2.Grounded := by
  have he := Session.stable_tracked.endBatch true h.tracked
  have hm := (Session.sees_endBatch Audited.monitor true b.session).always
  have hf (e : StoreError) := Session.faulted_endTransaction h.tracked (e := e)
  unfold Session.endBatch at he hm
  unfold commit Session.endBatch
  rcases hx : b.session.endTransaction true with ⟨e | _, s⟩ <;> rw [hx] at he hm hf
  · exact ⟨Session.stable_tracked.tell _ he, .inr (hf e rfl)⟩
  · exact h.next (Session.stable_tracked.tell _ he) rfl hm

theorem grounded_flush (h : b.Grounded) (t : Table) : (b.flush t).2.Grounded := by
  have hw := grounded_write h t
  by_cases ht : b.buffered t = 0
  · rw [flush_empty ht]
    exact h
  · rcases hx : b.write t with ⟨e | rows, d⟩ <;> rw [hx] at hw
    · rw [flush_missed ht hx]
      exact ⟨Session.stable_tracked.tell _ hw.tracked, hw.grounds⟩
    · have hl : (d.landed t (b.buffered t) rows).Grounded :=
        ⟨Session.stable_tracked.tell _ hw.tracked, hw.grounds⟩
      rw [flush_landed ht hx]
      split
      · exact grounded_commit hl t rows
      · exact hl

theorem invariant_grounded : Invariant fun _ _ (b : AuditedAccumulator) => b.Grounded where
  author _ h := ⟨h.tracked, h.grounds⟩
  element _ h := ⟨h.tracked, h.grounds⟩
  flush t h := grounded_flush h t

end

theorem grounded_fresh {faults : List Fault} (hf : Fault.Conforming faults)
    (thresholds : Thresholds) (policy : CounterReset) :
    (freshAudited faults thresholds policy).Grounded :=
  ⟨⟨_, _, .closed _ rfl, Session.keeps_conforming hf, Account.fair_empty⟩,
    .inl (PerTable.get_const 0)⟩

/-- The audit is of the accumulator that it goes along with, and no failed commit is counted there
unless a commit or a close failed. -/
theorem performAll_audited {faults : List Fault} (hf : Fault.Conforming faults)
    (thresholds : Thresholds) (policy : CounterReset) (calls : List Call) :
    let a := performAll calls (fresh faults thresholds policy)
    let audit := (performAll calls (freshAudited faults thresholds policy)).session.store
    audit.store = a.session.store ∧
      ((∀ t, a.report.failedCommits.get t = 0) ∨
        ∃ e ∈ audit.errors, e.operation = .commit ∨ e.operation = .close) := by
  have hL : Audited.lockstep.Accumulators (freshAudited faults thresholds policy)
      (fresh faults thresholds policy) := ⟨_, _, _, _, .closed _ rfl⟩
  have htracks (c : Call) : Lockstep.Tracks (Audited.lockstep (σ := Faulty Memory))
      (fun a => a.perform c) (fun a => a.perform c) := by
    cases c with
    | add e => exact .add e
    | flush t => exact .flush t
  have hrun := (Lockstep.Tracks.foldl htracks calls).follows hL id
  have hg := @Invariant.performAll _ _ _ _ invariant_grounded [] [] _ calls
    (grounded_fresh hf thresholds policy)
  change Audited.lockstep.Accumulators (performAll calls (freshAudited faults thresholds policy))
    (performAll calls (fresh faults thresholds policy)) at hrun
  generalize performAll calls (freshAudited faults thresholds policy) = b at hrun hg ⊢
  generalize performAll calls (fresh faults thresholds policy) = a at hrun ⊢
  obtain ⟨th, c, buffers, report, hs⟩ := hrun
  refine ⟨?_, hg.grounds⟩
  cases hs with
  | closed log h => exact h
  | live log h => exact h.2

/-- After any adding and flushing under any faults that drop the batches they strike: if no call is
struck from here on, finishing succeeds, and every table then holds what was committed, the rows of
the open transaction if it is on that table, and what waited for it. If only calls to open,
prepare, bind or execute failed so far, the elements of each kind are all there, in the order they
were added. -/
theorem finish_recovers (faults : List Fault) (hf : Fault.Conforming faults)
    (thresholds : Thresholds) (policy : CounterReset) (calls : List Call)
    (hs : (performAll calls (fresh faults thresholds policy)).finish.2.session.store.strikes =
      (performAll calls (fresh faults thresholds policy)).session.store.strikes) :
    let a := performAll calls (fresh faults thresholds policy)
    let committed := fun (s : FaultySession) (t : Table) => (s.store.inner.committed.get t).toList
    let audit := (performAll calls (freshAudited faults thresholds policy)).session.store
    (∃ report, a.finish.1 = .ok report) ∧
      (∀ t, committed a.finish.2.session t =
        committed a.session t ++ a.session.ledger.openRows t ++ (a.buffers.batch t).rows) ∧
      a.buffers.Ascending ∧ audit.store = a.session.store ∧
      ((∀ e ∈ audit.errors, e.operation ∈ [.connect, .prepare, .bind, .execute]) →
        ∀ k : ElementKind, committed a.finish.2.session k.table =
          elementRows k (calls.filterMap Call.entity?)) := by
  have hstart : Books.Reckoned ((fresh faults thresholds policy).books ⟨{}, []⟩ []) :=
    ⟨Account.fair_empty, PerTable.get_const 0, fun _ => Nat.zero_le _⟩
  obtain ⟨A, hA, hr⟩ := books_performAll Books.Reckoned.entry hf thresholds policy hstart calls
  have hc := @Invariant.performAll _ _ _ _ invariant_conserves [] _ _ calls
    (conserves_new faults hf thresholds policy)
  rw [List.nil_append] at hc
  obtain ⟨haudit, hground⟩ := performAll_audited hf thresholds policy calls
  generalize performAll calls (freshAudited faults thresholds policy) = b at haudit hground ⊢
  generalize performAll calls (fresh faults thresholds policy) = a at hs hA hr hc haudit hground ⊢
  obtain ⟨hok, B, hB, -, hall⟩ := finish_unstruck hA (by simp) hs
  have hafter (t : Table) : (a.finish.2.session.store.inner.committed.get t).toList =
      rowsWith A a t :=
    (congrFun (congrArg Ledger.committed hB.ledger_eq) t).trans (congrFun hall t)
  refine ⟨hok, fun t => ?_, a.buffers.ascending, haudit, fun hops k => ?_⟩
  · have hcom : (a.session.store.inner.committed.get t).toList = A.committed t :=
      congrFun (congrArg Ledger.committed hA.ledger_eq) t
    dsimp only
    rw [hafter t, hcom, hA.ledger_eq]
    rfl
  · have hzero : a.report.failedCommits.get k.table = 0 := by
      rcases hground with hz | ⟨e, he, ho⟩
      · exact hz k.table
      · have hmem := hops e he
        rcases ho with ho | ho <;> simp [ho] at hmem
    exact (hafter k.table).trans (rowsWith_elements hc hA hr hzero)

def passingFaults : List Fault :=
  [{ point := .prepare, times := some 1 },
    { point := .execute, table := some "nodes", times := some 1 }]

theorem conforming_passingFaults : Fault.Conforming passingFaults := by
  unfold Fault.Conforming
  decide

/-- Afterwards users are committed, a way is open and the rest waits. -/
def delayedCalls : List Call := smallStream.map Call.add ++ [.flush .ways]

def pairThresholds : Thresholds := ⟨2, 10, 10⟩

theorem finish_recovers_delayed :
    Fault.Conforming passingFaults ∧
      let a := performAll delayedCalls (fresh passingFaults pairThresholds .perTable)
      let audit :=
        (performAll delayedCalls
          (freshAudited passingFaults pairThresholds .perTable)).session.store
      a.finish.2.session.store.strikes = a.session.store.strikes ∧ a.session.store.strikes = 2 ∧
        (∃ report, a.finish.1 = .ok report) ∧ (a.session.ledger.openRows .ways).length = 1 ∧
        (∀ e ∈ audit.errors, e.operation ∈ [.connect, .prepare, .bind, .execute]) ∧
        ∀ k : ElementKind, (a.finish.2.session.store.inner.committed.get k.table).toList =
          elementRows k (delayedCalls.filterMap Call.entity?) := by
  have hops : ∀ e ∈ (performAll delayedCalls
      (freshAudited passingFaults pairThresholds .perTable)).session.store.errors,
      e.operation ∈ [.connect, .prepare, .bind, .execute] := by decide +kernel
  obtain ⟨hok, -, -, -, hall⟩ := finish_recovers passingFaults conforming_passingFaults
    pairThresholds .perTable delayedCalls (by decide +kernel)
  exact ⟨conforming_passingFaults, by decide +kernel, by decide +kernel, hok, by decide +kernel,
    hops, hall hops⟩

end Accumulator
end MapLoader
