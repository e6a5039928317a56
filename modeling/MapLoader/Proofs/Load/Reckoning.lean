import MapLoader.Proofs.Load.Books

/-! The report accounts for every row that was executed. A row counted as written is committed,
or waits in the open transaction, or was lost with a transaction that ended without a commit; and
every transaction that was lost with rows of a table was counted as a failed commit of it. -/

namespace MapLoader

namespace Transaction

/-- The rows of some transactions are those of the committed and those of the other ones. -/
theorem length_rows_split (t : Table) (xs : List Transaction) : (xs.flatMap (rows t)).length =
    ((xs.filter committed).flatMap (rows t)).length +
      ((xs.filter fun x => !x.committed).flatMap (rows t)).length := by
  rw [← List.length_append, ← List.flatMap_append]
  exact ((List.filter_append_perm committed xs).flatMap_right _).length_eq.symm

/-- Nothing of a table is missing among the committed rows just if every transaction with rows of
it was committed. -/
theorem rows_kept_iff {t : Table} {xs : List Transaction} :
    (xs.filter committed).flatMap (rows t) = xs.flatMap (rows t) ↔
      ∀ x ∈ xs, x.rows t ≠ [] → x.committed = true := by
  constructor
  · intro h x hx hr
    have hl := length_rows_split t xs
    rw [h] at hl
    have hnil : (xs.filter fun x => !x.committed).flatMap (rows t) = [] :=
      List.length_eq_zero_iff.1 (by omega)
    cases hc : x.committed with
    | true => rfl
    | false =>
      exact absurd (List.flatMap_eq_nil_iff.1 hnil x (List.mem_filter.2 ⟨hx, by simp [hc]⟩)) hr
  · intro h
    induction xs with
    | nil => rfl
    | cons x xs ih =>
      have hrest := ih fun y hy => h y (List.mem_cons_of_mem x hy)
      cases hc : x.committed with
      | true => simp [hc, hrest]
      | false =>
        have hnil : x.rows t = [] := Decidable.byContradiction fun hr =>
          Bool.false_ne_true (hc.symm.trans (h x List.mem_cons_self hr))
        simp [hc, hrest, hnil]

end Transaction

namespace Account

def past (a : Account) : List Transaction :=
  if a.current.isSome then a.history.tail.reverse else a.history.reverse

def lost (a : Account) : List Transaction := a.past.filter fun x => !x.committed

def losses (a : Account) (t : Table) : Nat := a.lost.countP fun x => x.rows t ≠ []

variable {a : Account}

theorem losses_opened (ha : a.current = none) (t u : Table) :
    (a.opened t).losses u = a.losses u := by
  simp [losses, lost, past, ha]

theorem losses_attempted (ha : a.current = none) (u : Table) :
    a.attempted.losses u = a.losses u := by
  simp [losses, lost, past, ha]

theorem losses_posted {t : Table} {rows : List Row} (ha : a.current = some (t, rows))
    (more : List Row) (u : Table) : (a.posted t more).losses u = a.losses u := by
  simp [losses, lost, past, ha]

theorem losses_settled {t : Table} {rows : List Row} (ha : a.current = some (t, rows))
    (u : Table) : a.settled.losses u = a.losses u := by
  cases h : a.history <;> simp [losses, lost, past, ha, h]

/-- Only a transaction with rows of a table is lost to it. -/
theorem Fair.losses_voided {t : Table} {rows : List Row} (h : a.Fair)
    (ha : a.current = some (t, rows)) (u : Table) :
    a.voided.losses u ≤ a.losses u + if u = t then 1 else 0 := by
  obtain ⟨x, past, hx, hxc, hxb, -⟩ := h.openRows_eq ha
  have hv : a.voided.lost = a.lost ++ [x] := by simp [lost, Account.past, ha, hx, hxc]
  rw [losses, hv, List.countP_append]
  refine Nat.add_le_add_left ?_ _
  by_cases hu : u = t
  · rw [if_pos hu]
    exact List.countP_le_length
  · simp [Transaction.rows_eq_nil hxb hu]

theorem Fair.length_executed (h : a.Fair) (t : Table) : (a.executed t).length =
    (a.committed t).length + (a.openRows t).length +
      (a.lost.flatMap (Transaction.rows t)).length := by
  rw [executed, h.committed t, lost, past]
  cases hc : a.current with
  | none =>
    rw [Ledger.openRows_eq_nil hc, Transaction.length_rows_split]
    simp
  | some y =>
    obtain ⟨u, rows⟩ := y
    obtain ⟨x, past, hx, hxc, -, hr⟩ := h.openRows_eq hc
    rw [hr t, hx, List.reverse_cons, List.flatMap_append, List.length_append,
      Transaction.length_rows_split]
    simp [hxc]
    omega

/-- Unless a transaction with rows of a table was lost, its executed rows are committed or open. -/
theorem Fair.held_eq (h : a.Fair) {t : Table} (hl : a.losses t = 0) : a.held t = a.executed t := by
  have hlost : ∀ x ∈ a.past, x.rows t ≠ [] → x.committed = true := fun x hx hr => by
    cases hc : x.committed with
    | true => rfl
    | false =>
      have hmem : x ∈ a.lost := List.mem_filter.2 ⟨hx, by simp [hc]⟩
      exact absurd (by simpa using List.countP_eq_zero.1 hl x hmem) hr
  rw [held, h.committed t, executed]
  rw [past] at hlost
  cases hc : a.current with
  | none =>
    rw [hc] at hlost
    rw [Ledger.openRows_eq_nil hc, List.append_nil]
    exact Transaction.rows_kept_iff.2 hlost
  | some y =>
    obtain ⟨u, rows⟩ := y
    obtain ⟨x, past, hx, hxc, -, hr⟩ := h.openRows_eq hc
    rw [hc, hx] at hlost
    have hpast : (past.reverse.filter Transaction.committed).flatMap (Transaction.rows t) =
        past.reverse.flatMap (Transaction.rows t) := Transaction.rows_kept_iff.2 hlost
    rw [hr t, hx, List.reverse_cons, List.filter_append, List.flatMap_append,
      List.flatMap_append, hpast]
    simp [hxc]

end Account

namespace Books

/-- The rows written are those executed, and every transaction lost was charged to its table. -/
structure Reckoned (b : Books) : Prop where
  fair : b.account.Fair
  written (t : Table) : b.written.get t = (b.account.executed t).length
  charged (t : Table) : b.account.losses t ≤ b.charges.get t

theorem Reckoned.entry {b b' : Books} (he : b.Entry b') (h : b.Reckoned) : b'.Reckoned := by
  refine ⟨Account.lasting_fair.entry he h.fair, fun u => ?_, fun u => ?_⟩
  · have hw := h.written u
    cases he with
    | posted x hb =>
      by_cases hu : u = x.table
      · simp [post, ← hu, hw]
      · simp [post, hu, Ne.symm hu, hw]
    | opened | attempted | settled | settledLate | lost => simpa [close, charge] using hw
  · have hc := h.charged u
    cases he with
    | opened t hb =>
      rw [Account.losses_opened hb]
      exact hc
    | attempted hb =>
      rw [Account.losses_attempted hb]
      exact hc
    | posted x hb =>
      obtain ⟨rows, hx⟩ := Ledger.exists_current hb
      rw [post, Account.losses_posted hx]
      exact hc
    | settled cause hb =>
      obtain ⟨rows, hx⟩ := Ledger.exists_current hb
      exact Nat.le_trans (Nat.le_of_eq (Account.losses_settled hx u)) hc
    | settledLate cause hb =>
      obtain ⟨rows, hx⟩ := Ledger.exists_current hb
      rw [get_charges_charge]
      exact Nat.le_add_right_of_le (Nat.le_trans (Nat.le_of_eq (Account.losses_settled hx u)) hc)
    | lost cause hb =>
      -- One loss more at most, and its table is the one that is charged.
      obtain ⟨rows, hx⟩ := Ledger.exists_current hb
      rw [get_charges_charge]
      exact Nat.le_trans (h.fair.losses_voided hx u) (Nat.add_le_add_right hc _)

end Books

namespace Session

def lost (s : FaultySession) : List Transaction :=
  let transactions := s.store.inner.transactions
  (if s.live.isSome then transactions.dropLast else transactions).filter fun x => !x.committed

theorem Keeps.lost_eq {spared : List CallPoint} {s : FaultySession} {a : Account}
    (h : s.Keeps spared a) : s.lost = a.lost := by
  have hh := h.history_eq
  unfold lost Account.lost Account.past Memory.transactions
  rw [hh]
  cases h with
  | closed log h => rfl
  | live log h hc => simp

end Session

namespace Accumulator

/-- The report counts the rows that are committed, open or lost, and the transactions that were
lost with rows of a table are counted there as failed commits. -/
structure Accounted (a : FaultyAccumulator) : Prop where
  written (t : Table) : a.report.written.get t =
    (a.session.store.inner.committed.get t).size + (a.session.ledger.openRows t).length +
      (a.session.lost.flatMap (Transaction.rows t)).length
  charged (t : Table) :
    (a.session.lost.countP fun x => x.rows t ≠ []) ≤ a.report.failedCommits.get t

theorem accounted_of_reckoned {spared : List CallPoint} {a : FaultyAccumulator} {A : Account}
    {counters : Counters} {xs : List Batch} (hA : a.session.Keeps spared A)
    (h : Books.Reckoned ⟨A, counters, a.report.written, a.report.failedCommits, xs⟩) :
    a.Accounted := by
  have hl := hA.ledger_eq
  have hlost := hA.lost_eq
  refine ⟨fun t => ?_, fun t => hlost ▸ h.charged t⟩
  have hw : a.report.written.get t = (A.executed t).length := h.written t
  have hx := h.fair.length_executed t
  dsimp only at hx
  rw [hw, hx, hl, hlost, ← Array.length_toList, hA.committed_eq]

theorem Accounted.written_eq {a : FaultyAccumulator} (h : a.Accounted) {t : Table}
    (hopen : a.session.ledger.openRows t = []) (hc : a.report.failedCommits.get t = 0) :
    a.report.written.get t = (a.session.store.inner.committed.get t).size := by
  have hz : (a.session.lost.countP fun x => x.rows t ≠ []) = 0 := Nat.le_zero.1 (hc ▸ h.charged t)
  have hlost : a.session.lost.flatMap (Transaction.rows t) = [] :=
    List.flatMap_eq_nil_iff.2 fun x hx => by simpa using List.countP_eq_zero.1 hz x hx
  rw [h.written t, hopen, hlost]
  rfl

theorem reckoned_fresh (faults : List Fault) (thresholds : Thresholds) (policy : CounterReset) :
    Books.Reckoned ((fresh faults thresholds policy).books ⟨{}, []⟩ []) :=
  ⟨Account.fair_empty, PerTable.get_const 0, fun _ => Nat.zero_le _⟩

theorem reckoned_finish {a : FaultyAccumulator} {A : Account} {xs : List Batch}
    (hA : a.session.Keeps [.executeKeep] A) (hr : (a.books A xs).Reckoned) :
    ∃ D counters xs, a.finish.2.session.Keeps [.executeKeep] D ∧ D.current = none ∧
      Books.Reckoned
        ⟨D, counters, a.finish.2.report.written, a.finish.2.report.failedCommits, xs⟩ := by
  obtain ⟨B, hB, hrB⟩ :=
    (recorded_books Books.Reckoned.entry (by simp)).flushes Table.all ⟨A, hA, hr⟩
  obtain ⟨D, counters, hD, hn, he⟩ := entries_finish hB _
  exact ⟨D, counters, _, hD, hn, he.induct Books.Reckoned.entry hrB⟩

/-- In every state that adding and flushing can reach under any faults that drop the batches they
strike, finished or not, the report counts the rows that are committed, open or lost, and a
transaction is lost with rows of a table only if a failed commit of it is counted. If a load
finishes well without one, the rows counted for the table are those committed. -/
theorem report_accounts_for_rows (faults : List Fault) (hf : Fault.Conforming faults)
    (thresholds : Thresholds) (policy : CounterReset) (calls : List Call) :
    let a := performAll calls (fresh faults thresholds policy)
    a.Accounted ∧ a.finish.2.Accounted ∧ ∀ report, a.finish.1 = .ok report →
      report = a.finish.2.report ∧ ∀ t, report.failedCommits.get t = 0 →
        report.written.get t = (a.finish.2.session.store.inner.committed.get t).size := by
  have hstart : Books.Reckoned ((fresh faults thresholds policy).books ⟨{}, []⟩ []) :=
    ⟨Account.fair_empty, PerTable.get_const 0, fun _ => Nat.zero_le _⟩
  obtain ⟨A, hA, hr⟩ := books_performAll Books.Reckoned.entry hf thresholds policy hstart calls
  generalize performAll calls (fresh faults thresholds policy) = a at hA hr ⊢
  obtain ⟨B, hB, hrB⟩ :=
    (recorded_books Books.Reckoned.entry (by simp)).flushes Table.all ⟨A, hA, hr⟩
  obtain ⟨D, counters, hD, hn, he⟩ := entries_finish hB _
  have hfin : a.finish.2.Accounted := accounted_of_reckoned hD (he.induct Books.Reckoned.entry hrB)
  refine ⟨accounted_of_reckoned hA hr, hfin, fun report ho => ?_⟩
  have hrep := report_finish ho
  refine ⟨hrep.symm, fun t hc => hrep ▸ hfin.written_eq ?_ (hrep.symm ▸ hc)⟩
  rw [hD.ledger_eq, Ledger.openRows_eq_nil hn]

def lossyFaults : List Fault := [{ point := .commit, skip := 2, times := some 1 }]

/-- The commit that is struck loses an author; the other tables are complete. -/
theorem report_accounts_for_rows_lossy :
    Fault.Conforming lossyFaults ∧
      let a := performAll (smallStream.map .add)
        (fresh lossyFaults tightOptions.thresholds .perTable)
      a.finish.2.Accounted ∧
        (a.finish.2.session.lost.flatMap (Transaction.rows .users)).length = 1 ∧
        ∃ report, a.finish.1 = .ok report ∧ report.failedCommits.get .users = 1 ∧
          report.written.get .nodes =
            (a.finish.2.session.store.inner.committed.get .nodes).size := by
  have hf : Fault.Conforming lossyFaults := by
    unfold Fault.Conforming
    decide
  obtain ⟨-, hfin, hok⟩ := report_accounts_for_rows lossyFaults hf tightOptions.thresholds
    .perTable (smallStream.map .add)
  exact ⟨hf, hfin, rfl, _, rfl, rfl, (hok _ rfl).2 .nodes rfl⟩

end Accumulator
end MapLoader
