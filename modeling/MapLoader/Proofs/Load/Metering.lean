import Mathlib.Algebra.GroupWithZero.Nat
import MapLoader.Proofs.Load.Books

/-! The counters measure the open transaction. If every commit resets all counters, then between
the calls only the table of the open transaction has a count, and it is the number of entries
written since the transaction began, which stays below the threshold. -/

namespace MapLoader

theorem addSaturating_min (m n : Nat) :
    addSaturating (min m maxUInt64) n = min (m + n) maxUInt64 := by
  unfold addSaturating
  omega

namespace Books

/-- The batches executed are those written, and if every commit resets all counters, they count
what was written in the open transaction. -/
structure Metered (b : Books) : Prop where
  batches : b.account.batches = b.posted.map Batch.entry
  policy : b.counters.policy = .global
  closed : b.account.current = none → ∀ t, b.counters.get t = 0
  opened {t : Table} {rows : List Row} : b.account.current = some (t, rows) →
    (∀ u, u ≠ t → b.counters.get u = 0) ∧ ∃ past now x older, b.posted = past ++ now ∧
      b.account.history = x :: older ∧ x.batches = now.map Batch.entry ∧
      b.counters.get t = min (now.map Batch.size).sum maxUInt64

theorem Metered.post {b : Books} (h : b.Metered) {x : Batch}
    (hb : b.account.openTable? = some x.table) : (b.post x).Metered := by
  obtain ⟨rows, hc⟩ := Ledger.exists_current hb
  obtain ⟨hother, past, now, y, older, hp, hh, hy, hn⟩ := h.opened hc
  refine ⟨by simp [Books.post, h.batches, Batch.entry], h.policy, fun hnone => ?_, fun hsome => ?_⟩
  · simp [Books.post, hc] at hnone
  · simp only [Books.post, Account.toLedger_posted, Ledger.current_posted, hc, Option.map_some,
      Option.some.injEq, Prod.mk.injEq] at hsome
    obtain ⟨rfl, -⟩ := hsome
    refine ⟨fun u hu => ?_, past, now ++ [x], y.post x.table x.rows, older, ?_, ?_, ?_, ?_⟩
    · simp [Books.post, hu, hother u hu]
    · simp [Books.post, hp]
    · simp [Books.post, hh]
    · simp [Transaction.post, hy, Batch.entry]
    · simp [Books.post, hn, addSaturating_min]

theorem Metered.close {b : Books} (h : b.Metered) (cause : CommitCause) {a : Account}
    (ha : a.batches = b.account.batches) (hn : a.current = none) : (b.close cause a).Metered where
  batches := ha.trans h.batches
  policy := by simp [Books.close, h.policy]
  closed _ t := Counters.get_reset_of_global h.policy cause t
  opened hc := nomatch hn.symm.trans hc

theorem Metered.charge {b : Books} (h : b.Metered) (t : Table) : (b.charge t).Metered :=
  ⟨h.batches, h.policy, h.closed, h.opened⟩

theorem Metered.entry {b b' : Books} (he : b.Entry b') (h : b.Metered) : b'.Metered := by
  cases he with
  | opened t hb =>
    refine ⟨by simp [h.batches], h.policy, nofun, fun hc => ?_⟩
    cases hc
    exact ⟨fun u _ => h.closed hb u, b.posted, [], {}, _, by simp, rfl, rfl, h.closed hb t⟩
  | attempted hb =>
    exact ⟨by simp [h.batches], h.policy, h.closed, fun hc => nomatch hb.symm.trans hc⟩
  | posted x hb => exact h.post hb
  | settled cause hb => exact h.close cause (by simp) rfl
  | settledLate cause hb => exact (h.close cause (by simp) rfl).charge _
  | lost cause hb => exact (h.close cause (by simp) rfl).charge _

end Books

namespace Books

/-- The rows of a transaction on one table are the entries of its batches, one by one, unless
these are lists of members. -/
theorem length_rows_of_batches {x : Transaction} {now : List Batch} {t : Table}
    (hx : x.batches = now.map Batch.entry) (hb : ∀ y ∈ x.batches, y.1 = t)
    (ht : t.isMemberList = false) : (x.rows t).length = (now.map Batch.size).sum := by
  have hy : ∀ y ∈ now, (if y.table = t then y.rows else []).length = y.size := by
    intro y hy
    have hyt : y.table = t := hb y.entry (hx ▸ List.mem_map_of_mem hy)
    rw [if_pos hyt, Batch.length_rows (hyt ▸ ht)]
  rw [Transaction.rows, hx, List.flatMap_map, List.length_flatMap]
  exact congrArg List.sum (List.map_congr_left hy)

/-- When a table is open, the other counters are zero. Its own, unless it is at its greatest value,
is the number of entries of the batches that the latest transaction holds. -/
theorem Metered.counter_eq {b : Books} (h : b.Metered) (hfair : b.account.Fair) {t : Table}
    (ht : b.account.openTable? = some t) (hlt : b.counters.get t < maxUInt64) :
    (∀ u, u ≠ t → b.counters.get u = 0) ∧
      (∃ past now x older, b.posted = past ++ now ∧ b.account.history = x :: older ∧
        x.committed = false ∧ x.rows t = b.account.openRows t ∧
        x.batches = now.map Batch.entry ∧ b.counters.get t = (now.map Batch.size).sum) ∧
      (t.isMemberList = false → b.counters.get t = (b.account.openRows t).length) := by
  obtain ⟨rows, hc⟩ := Ledger.exists_current ht
  obtain ⟨hother, past, now, x, older, hp, hh, hx, hn⟩ := h.opened hc
  obtain ⟨y, _, hy, hyc, hyb, hyr⟩ := hfair.openRows_eq hc
  obtain ⟨rfl, rfl⟩ := List.cons_eq_cons.1 (hh.symm.trans hy)
  have hsum : b.counters.get t = (now.map Batch.size).sum := by omega
  refine ⟨hother, ⟨past, now, x, older, hp, hh, hyc, (hyr t).symm, hx, hsum⟩, fun hm => ?_⟩
  rw [hsum, hyr t, length_rows_of_batches hx hyb hm]

end Books

namespace Accumulator

section

variable {σ κ : Type} [Store σ κ]

/-- Under these thresholds, no table has reached the one for its commit. -/
structure Restrained (h : Thresholds) (a : Accumulator σ κ) : Prop where
  thresholds : a.thresholds = h
  below (t : Table) : a.counters.get t < max 1 (h.commitFor t)

theorem begin_counters (t : Table) (a : Accumulator σ κ) (u : Table) :
    (a.begin t).2.counters.get u ≤ a.counters.get u := by
  have hle := Counters.get_reset_le a.counters .switch u
  unfold begin
  split
  · dsimp only
    split
    · exact hle
    · exact Nat.le_refl _
  · exact hle
  · exact hle
  · exact Nat.le_refl _

theorem write_counters (t : Table) (a : Accumulator σ κ) (u : Table) :
    (a.write t).2.counters.get u ≤ a.counters.get u := by
  have h := begin_counters t a u
  unfold write
  generalize a.begin t = x at h ⊢
  obtain ⟨o, b⟩ := x
  cases o <;> exact h

theorem commit_counters (t : Table) (rows : Nat) (a : Accumulator σ κ) :
    (a.commit t rows).2.counters = a.counters.reset (.threshold t) := by
  unfold commit
  split <;> rfl

theorem Restrained.flush {h : Thresholds} {a : Accumulator σ κ} (ha : a.Restrained h) (t : Table) :
    (a.flush t).2.Restrained h := by
  refine ⟨(thresholds_flush t a).trans ha.thresholds, fun u => ?_⟩
  by_cases ht : a.buffered t = 0
  · rw [flush_empty ht]
    exact ha.below u
  have hth := (thresholds_write t a).trans ha.thresholds
  have hlt := Nat.lt_of_le_of_lt (write_counters t a u) (ha.below u)
  rcases hw : a.write t with ⟨e | rows, b⟩ <;> rw [hw] at hth hlt <;> dsimp only at hth hlt
  · rw [flush_missed ht hw]
    exact hlt
  · rw [flush_landed ht hw]
    have hlth : (b.landed t (a.buffered t) rows).thresholds = h := hth
    have hother (hu : u ≠ t) :
        (b.landed t (a.buffered t) rows).counters.get u < max 1 (h.commitFor u) := by
      simpa [landed, hu] using hlt
    generalize b.landed t (a.buffered t) rows = c at hlth hother ⊢
    split
    · rw [commit_counters]
      by_cases hu : u = t
      · rw [hu, Counters.get_reset_threshold]
        omega
      · exact Nat.lt_of_le_of_lt (Counters.get_reset_le _ _ u) (hother hu)
    · rename_i hdue
      by_cases hu : u = t
      · rw [CommitDue, Nat.not_le, hlth] at hdue
        exact hu ▸ Nat.lt_of_lt_of_le hdue (Nat.le_max_right _ _)
      · exact hother hu

theorem recorded_restrained (h : Thresholds) :
    Recorded fun _ (a : Accumulator σ κ) => a.Restrained h where
  author _ ha := ⟨ha.thresholds, ha.below⟩
  element _ ha := ⟨ha.thresholds, ha.below⟩
  flush t ha := ha.flush t

end

/-- In every state that adding and flushing can reach under any faults that drop the batches they
strike, if every commit resets all counters: the transactions hold the batches written, in order.
When nothing is open, every counter is zero. When a table is open, the counters of the others are
zero, and its own is the number of entries of the batches that the open transaction holds; these
are its rows, unless they are lists of members. No counter reaches its threshold, and so fewer
rows than that wait to be committed. -/
theorem counters_measure_transaction (faults : List Fault) (hf : Fault.Conforming faults)
    (thresholds : Thresholds) (hfit : ∀ t, thresholds.commitFor t ≤ maxUInt64)
    (calls : List Call) :
    let start := fresh faults thresholds .global
    let a := performAll calls start
    let posts := performAllPosts calls start
    let transactions := a.session.store.inner.transactions
    transactions.flatMap Transaction.batches = posts.map Batch.entry ∧
      (a.session.openTable? = none → ∀ t, a.counters.get t = 0) ∧
      (∀ t, a.session.openTable? = some t → (∀ u, u ≠ t → a.counters.get u = 0) ∧
        (∃ past now x, posts = past ++ now ∧ transactions.getLast? = some x ∧
          x.committed = false ∧ x.rows t = a.session.ledger.openRows t ∧
          x.batches = now.map Batch.entry ∧ a.counters.get t = (now.map Batch.size).sum) ∧
        (t.isMemberList = false → a.counters.get t = (a.session.ledger.openRows t).length)) ∧
      (∀ t, a.counters.get t < max 1 (thresholds.commitFor t)) ∧
      ∀ t, t.isMemberList = false →
        (a.session.ledger.openRows t).length < max 1 thresholds.commit := by
  have hstart : Restrained thresholds (fresh faults thresholds .global) := by
    refine ⟨rfl, fun t => ?_⟩
    rw [fresh, new, Counters.get_new]
    omega
  have hR := (recorded_restrained thresholds).performAll_of_nil calls hstart
  obtain ⟨A, hA, hfair, hM⟩ := books_performAll (P := fun b => b.account.Fair ∧ b.Metered)
    (fun he h => ⟨Account.lasting_fair.entry he h.1, h.2.entry he⟩) hf thresholds .global
    ⟨Account.fair_empty, rfl, rfl, fun _ t => Counters.get_new .global t, nofun⟩ calls
  dsimp only
  generalize performAllPosts calls (fresh faults thresholds .global) = posts at hM ⊢
  generalize performAll calls (fresh faults thresholds .global) = a at hR hA hM ⊢
  rw [Memory.transactions, hA.history_eq, hA.openTable?_eq, hA.ledger_eq]
  have hlt (t : Table) : a.counters.get t < maxUInt64 := by
    have hb := hR.below t
    have hm := hfit t
    unfold maxUInt64 at hm ⊢
    omega
  have hopen (t : Table) (ht : A.openTable? = some t) := hM.counter_eq hfair ht (hlt t)
  refine ⟨hM.batches, fun hn => hM.closed (Option.map_eq_none_iff.1 hn), fun t ht => ?_, hR.below,
    fun t hm => ?_⟩
  · obtain ⟨hother, ⟨past, now, x, older, hp, hh, hx⟩, hrows⟩ := hopen t ht
    have hlast : A.history.reverse.getLast? = some x := by
      rw [List.getLast?_reverse]
      exact congrArg List.head? hh
    exact ⟨hother, ⟨past, now, x, hp, hlast, hx⟩, hrows⟩
  · have hb := hR.below t
    rw [Thresholds.commitFor, hm] at hb
    by_cases ht : A.openTable? = some t
    · obtain ⟨-, -, hrows⟩ := hopen t ht
      exact hrows hm ▸ hb
    · rw [Ledger.openRows_of_ne ht, List.length_nil]
      omega

def commitFaults : List Fault := [{ point := .commit, times := some 1 }]

def listThresholds : Thresholds := ⟨2, 3, 3⟩

def wayOf (id : Int) (nodeRefs : List Int) : Entity := .way ⟨id, {}, .empty, nodeRefs⟩

/-- Node lists are written three times: the first is lost when the ways are written, and the
other two, of which one is empty, share the open transaction. -/
def wayCalls : List Call :=
  [.add (wayOf 2 [1]), .flush .wayNodes, .add (wayOf 5 [3, 4]), .flush .wayNodes,
    .add (wayOf 6 []), .flush .wayNodes]

theorem counters_measure_transaction_lists :
    Fault.Conforming commitFaults ∧ (∀ t, listThresholds.commitFor t ≤ maxUInt64) ∧
      let start := fresh commitFaults listThresholds .global
      let a := performAll wayCalls start
      a.session.openTable? = some .wayNodes ∧ a.counters.get .wayNodes = 2 ∧
        a.report.failedCommits.get .wayNodes = 1 ∧
        ∃ past now x, performAllPosts wayCalls start = past ++ now ∧
          a.session.store.inner.transactions.getLast? = some x ∧ x.committed = false ∧
          x.rows .wayNodes = a.session.ledger.openRows .wayNodes ∧
          x.batches = now.map Batch.entry ∧
          a.counters.get .wayNodes = (now.map Batch.size).sum := by
  have hf : Fault.Conforming commitFaults := by
    unfold Fault.Conforming
    decide
  have hfit (t : Table) : listThresholds.commitFor t ≤ maxUInt64 := by cases t <;> decide
  obtain ⟨-, -, hopen, -⟩ :=
    counters_measure_transaction commitFaults hf listThresholds hfit wayCalls
  exact ⟨hf, hfit, rfl, rfl, rfl, (hopen .wayNodes rfl).2.1⟩

end Accumulator
end MapLoader
