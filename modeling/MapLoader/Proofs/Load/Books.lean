import Mathlib.Logic.Relation
import MapLoader.Proofs.Load.Bookkeeping
import MapLoader.Proofs.Load.Trail

/-! The books of an accumulator: the account of its session beside what the accumulator counts
itself. Whatever calls are struck, a run makes a few kinds of entries in them, and an entry
changes the account and the counts together. -/

namespace MapLoader

/-- The account of a session, what was counted since the last commit, the rows written and the
commits that failed for each table, and the batches written so far. -/
structure Books where
  account : Account
  counters : Counters
  written : PerTable Nat
  charges : PerTable Nat
  posted : List Batch

namespace Books

/-- A batch is written. -/
def post (x : Batch) (b : Books) : Books where
  account := b.account.posted x.table x.rows
  counters := b.counters.add x.table x.size
  written := b.written.modify x.table (· + x.rows.length)
  charges := b.charges
  posted := b.posted ++ [x]

/-- The open transaction is over and leaves this account. -/
def close (cause : CommitCause) (a : Account) (b : Books) : Books :=
  { b with account := a, counters := b.counters.reset cause }

/-- A failed commit is counted. -/
def charge (t : Table) (b : Books) : Books := { b with charges := b.charges.modify t (· + 1) }

theorem get_charges_charge (t u : Table) (b : Books) :
    (b.charge t).charges.get u = b.charges.get u + if u = t then 1 else 0 := by
  rw [charge, PerTable.get_modify]
  split <;> rfl

/-- One change of the books. A transaction that is lost is charged to its table; one that is
settled may be charged too, if it was reported as failed. -/
inductive Entry (b : Books) : Books → Prop
  | opened (t : Table) (h : b.account.current = none) :
    Entry b { b with account := b.account.opened t }
  | attempted (h : b.account.current = none) : Entry b { b with account := b.account.attempted }
  | posted (x : Batch) (h : b.account.openTable? = some x.table) : Entry b (b.post x)
  | settled {t : Table} (cause : CommitCause) (h : b.account.openTable? = some t) :
    Entry b (b.close cause b.account.settled)
  | settledLate {t : Table} (cause : CommitCause) (h : b.account.openTable? = some t) :
    Entry b ((b.close cause b.account.settled).charge t)
  | lost {t : Table} (cause : CommitCause) (h : b.account.openTable? = some t) :
    Entry b ((b.close cause b.account.voided).charge t)

/-- Every batch written is executed. -/
theorem Entry.batches_eq {b b' : Books} (he : b.Entry b')
    (h : b.account.batches = b.posted.map Batch.entry) :
    b'.account.batches = b'.posted.map Batch.entry := by
  cases he with
  | opened | attempted | settled | settledLate | lost => simpa [close, charge] using h
  | posted x hb => simp [post, h, Batch.entry]

abbrev Entries : Books → Books → Prop := Relation.ReflTransGen Entry

theorem Entries.induct {P : Books → Prop} (hP : ∀ {b b'}, b.Entry b' → P b → P b') {b b' : Books}
    (h : b.Entries b') (hb : P b) : P b' := by
  induction h with
  | refl => exact hb
  | tail _ he ih => exact hP he ih

variable {closing : Prop} {b : Books} {t : Table} {a : Account}

theorem entries_opens {o : Except StoreError Unit} (hb : b.account.current = none)
    (h : Account.Opens t b.account o a) : b.Entries { b with account := a } := by
  cases h with
  | opened => exact .single (.opened t hb)
  | refused e => exact .refl
  | attempted e => exact .single (.attempted hb)

/-- Ending the open transaction; if that fails, its table is charged. -/
theorem entry_ends {o : Except StoreError Unit} (hb : b.account.openTable? = some t)
    (h : Account.Ends closing b.account true o a) (cause : CommitCause) :
    (o = .ok () ∧ b.Entry (b.close cause a)) ∨
      ∃ e, o = .error e ∧ b.Entry ((b.close cause a).charge t) := by
  cases h with
  | idle _ h => simp [Ledger.openTable?, h] at hb
  | settled _ => exact .inl ⟨rfl, .settled cause hb⟩
  | settledLate e _ _ => exact .inr ⟨e, rfl, .settledLate cause hb⟩
  | lost e _ => exact .inr ⟨e, rfl, .lost cause hb⟩

/-- How the answer to the beginning of a batch, which leaves this account, is counted. -/
def heed (a : Account) (b : Books) : Except SessionError Session.BatchStart → Books
  | .ok start => if start.previousCommitted then b.close .switch a else { b with account := a }
  | .error (.switchCommit t _ _) => (b.close .switch a).charge t
  | .error (.switchOpen _ _ _) => b.close .switch a
  | .error (.connection _) | .error (.illegalState _ _) | .error (.batch _ _) =>
    { b with account := a }

theorem entries_begins {o : Except SessionError Session.BatchStart}
    (h : Account.Begins closing t b.account o a) : b.Entries (b.heed a o) := by
  have hsettled {u : Table} {rows : List Row} (hb : b.account.current = some (u, rows)) :
      b.Entries (b.close .switch b.account.settled) :=
    .single (.settled .switch (Ledger.openTable?_eq hb))
  cases h with
  | stays _ => exact .refl
  | turns _ h =>
    cases h with
    | opened hb => exact .single (.opened t hb)
    | refused e hb h => exact entries_opens hb h
    | turned hb => exact (hsettled hb).tail (.opened t rfl)
    | lost e hb => exact .single (.lost .switch (Ledger.openTable?_eq hb))
    | settledLate e hb _ => exact .single (.settledLate .switch (Ledger.openTable?_eq hb))
    | stranded e hb h =>
      exact (hsettled hb).trans (entries_opens (b := b.close .switch b.account.settled) rfl h)

/-- Nothing is counted when a batch is begun that follows no other. -/
theorem heed_of_closed {o : Except SessionError Session.BatchStart}
    (hb : b.account.current = none) (h : Account.Begins closing t b.account o a) :
    b.heed a o = { b with account := a } := by
  cases h with
  | stays h => cases hb.symm.trans h
  | turns _ h =>
    cases h with
    | opened _ => rfl
    | refused _ _ _ => rfl
    | turned h | lost _ h | settledLate _ h _ | stranded _ h _ => cases hb.symm.trans h

end Books

theorem Account.Lasting.entry {P : Account → Prop} (L : Lasting P) {b b' : Books}
    (he : b.Entry b') (h : P b.account) : P b'.account := by
  cases he with
  | opened t hb => exact L.opened t hb h
  | attempted hb => exact L.attempted hb h
  | posted x hb => exact L.posted_of_open hb h x.rows
  | settled _ hb | settledLate _ hb =>
    obtain ⟨rows, hx⟩ := Ledger.exists_current hb
    exact L.settled hx h
  | lost _ _ => exact L.voided h

namespace Accumulator

/-- The books of an accumulator whose session keeps this account and which wrote these batches. -/
def books (A : Account) (xs : List Batch) (a : FaultyAccumulator) : Books :=
  ⟨A, a.counters, a.report.written, a.report.failedCommits, xs⟩

variable {spared : List CallPoint} {a : FaultyAccumulator} {A : Account} {xs : List Batch}

/-- Beginning makes entries only, and if it succeeds, the session is open for the table. -/
theorem entries_begin (h : a.session.Keeps spared A) (t : Table) (xs : List Batch) :
    ∃ B, (a.begin t).2.session.Keeps spared B ∧ (a.books A xs).Entries ((a.begin t).2.books B xs) ∧
      ((a.begin t).1 = .ok () → B.openTable? = some t) := by
  obtain ⟨⟨B, hB, hb⟩, -⟩ := Session.enters_beginBatch h t
  have he := Books.entries_begins (b := a.books A xs) hb
  unfold begin
  generalize a.session.beginBatch t = x at hB hb he ⊢
  obtain ⟨o, s⟩ := x
  dsimp only at hB hb he ⊢
  cases o with
  | ok start =>
    have hopen := hb.openTable?_eq
    obtain ⟨committed⟩ := start
    refine ⟨B, hB, ?_, fun _ => hopen⟩
    cases committed <;> exact he
  | error e =>
    cases e with
    | switchCommit previous next source =>
      -- The session is closed now: the second attempt has no transaction that it could lose.
      have hc : B.current = none := hb.current_of_switchCommit
      dsimp only
      generalize Notice.switchCommitFailed previous t _ source = n
      obtain ⟨⟨D, hD, hd⟩, -⟩ := Session.enters_beginBatch (hB.tell n) t
      have hd' := Books.entries_begins (b := ((a.books A xs).close .switch B).charge previous) hd
      rw [Books.heed_of_closed hc hd] at hd'
      generalize (s.tell n).beginBatch t = y at hD hd ⊢
      obtain ⟨o, u⟩ := y
      refine ⟨D, hD, he.trans hd', fun ho => ?_⟩
      cases o with
      | ok start => exact hd.openTable?_eq
      | error e => cases ho
    | switchOpen committed next source => exact ⟨B, hB, he, nofun⟩
    | connection source => exact ⟨B, hB, he, nofun⟩
    | illegalState requested current => exact ⟨B, hB, he, nofun⟩
    | batch table source => exact ⟨B, hB, he, nofun⟩

/-- What a write does after it began with this account: the batch is posted as a whole, or the
account stays. -/
theorem write_posts (hk : .executeKeep ∈ spared) {t : Table} {B : Account}
    (hB : (a.begin t).2.session.Keeps spared B)
    (ho : (a.begin t).1 = .ok () → B.openTable? = some t) :
    (a.write t).2.report = (a.begin t).2.report ∧ (a.write t).2.counters = (a.begin t).2.counters ∧
      (((a.write t).1 = .ok (a.buffers.batch t).rows.length ∧ B.openTable? = some t ∧
          (a.write t).2.session.Keeps spared (B.posted t (a.buffers.batch t).rows)) ∨
        ∃ e, (a.write t).1 = .error e ∧ (a.write t).2.session.Keeps spared B) := by
  have hf := begin_frame t a
  have hx := a.buffers.table_batch t
  unfold write
  generalize a.begin t = x at hB ho hf ⊢
  obtain ⟨o, b⟩ := x
  dsimp only at hB ho hf
  cases o with
  | error e => exact ⟨rfl, rfl, .inr ⟨e, rfl, hB⟩⟩
  | ok =>
    have hopen := ho rfl
    dsimp only
    rw [hf.1]
    obtain ⟨⟨D, hD, hd⟩, -⟩ :=
      Session.enters_insert (b := a.buffers.batch t) hB hk (hx.symm ▸ hopen)
    generalize b.session.insert (a.buffers.batch t) = y at hD hd ⊢
    obtain ⟨o, u⟩ := y
    dsimp only at hD hd ⊢
    refine ⟨rfl, rfl, ?_⟩
    cases hd with
    | posted =>
      rw [hx] at hD
      exact .inl ⟨rfl, hopen, hD⟩
    | spoiled e => exact .inr ⟨_, rfl, hD⟩

/-- What a write leaves of the account it began with, by its answer. -/
theorem entries_write (h : a.session.Keeps spared A) (hk : .executeKeep ∈ spared) (t : Table)
    (xs : List Batch) : ∃ B, (a.books A xs).Entries ((a.write t).2.books B xs) ∧
      (((a.write t).1 = .ok (a.buffers.batch t).rows.length ∧ B.openTable? = some t ∧
          (a.write t).2.session.Keeps spared (B.posted t (a.buffers.batch t).rows)) ∨
        ∃ e, (a.write t).1 = .error e ∧ (a.write t).2.session.Keeps spared B) := by
  obtain ⟨B, hB, he, ho⟩ := entries_begin h t xs
  obtain ⟨hr, hc, hw⟩ := write_posts hk hB ho
  have hb : (a.write t).2.books B xs = (a.begin t).2.books B xs := by
    unfold books
    rw [hr, hc]
  exact ⟨B, hb.symm ▸ he, hw⟩

/-- Committing after a flush ends the open transaction. -/
theorem entries_commit (h : a.session.Keeps spared A) {t : Table} (ht : A.openTable? = some t)
    (rows : Nat) (xs : List Batch) : ∃ B, (a.commit t rows).2.session.Keeps spared B ∧
      (a.books A xs).Entry ((a.commit t rows).2.books B xs) := by
  obtain ⟨⟨B, hB, o', ho, he⟩, -⟩ := Session.enters_endBatch h true
  have hentry := Books.entry_ends (b := a.books A xs) ht he (.threshold t)
  unfold commit
  generalize a.session.endBatch true = x at hB ho ⊢
  obtain ⟨o, s⟩ := x
  dsimp only at hB ho ⊢
  obtain ⟨rfl, hentry⟩ | ⟨e, rfl, hentry⟩ := hentry <;> rw [ho]
  · exact ⟨B, hB.tell _, hentry⟩
  · exact ⟨B, hB.tell _, hentry⟩

/-- The books after a batch is written are those before with one more entry. -/
theorem books_landed (a b : FaultyAccumulator) (B : Account) (t : Table) (xs : List Batch) :
    (b.landed t (a.buffered t) (a.buffers.batch t).rows.length).books
        (B.posted t (a.buffers.batch t).rows) (xs ++ [a.buffers.batch t]) =
      (b.books B xs).post (a.buffers.batch t) := by
  simp only [books, Books.post, landed, Buffers.table_batch, Buffers.size_batch]
  rfl

theorem entries_flush (h : a.session.Keeps spared A) (hk : .executeKeep ∈ spared) (t : Table)
    (xs : List Batch) : ∃ B, (a.flush t).2.session.Keeps spared B ∧
      (a.books A xs).Entries ((a.flush t).2.books B (xs ++ a.flushPosts t)) := by
  by_cases ht : a.buffered t = 0
  · rw [flushPosts_empty ht, flush_empty ht, List.append_nil]
    exact ⟨A, h, .refl⟩
  obtain ⟨B, he, hB⟩ := entries_write h hk t xs
  rcases hw : a.write t with ⟨o, b⟩
  rw [hw] at he hB
  dsimp only at he hB
  obtain ⟨rfl, hopen, hB⟩ | ⟨e, rfl, hB⟩ := hB
  · have hpost : (b.books B xs).Entry ((b.books B xs).post (a.buffers.batch t)) :=
      .posted _ (hopen.trans (congrArg some (a.buffers.table_batch t).symm))
    rw [← books_landed] at hpost
    rw [flushPosts_landed ht hw, flush_landed ht hw]
    have hl : (b.landed t (a.buffered t) (a.buffers.batch t).rows.length).session.Keeps spared
        (B.posted t (a.buffers.batch t).rows) := hB.tell _
    generalize b.landed t (a.buffered t) (a.buffers.batch t).rows.length = c at hpost hl ⊢
    split
    · obtain ⟨D, hD, hend⟩ := entries_commit hl (by simpa using hopen)
        (a.buffers.batch t).rows.length (xs ++ [a.buffers.batch t])
      exact ⟨D, hD, (he.tail hpost).tail hend⟩
    · exact ⟨_, hl, he.tail hpost⟩
  · rw [flushPosts_missed ht hw, flush_missed ht hw, List.append_nil]
    exact ⟨B, hB.tell _, he⟩

/-- What every entry keeps, every run keeps. -/
theorem recorded_books {P : Books → Prop} (hP : ∀ {b b' : Books}, b.Entry b' → P b → P b')
    (hk : .executeKeep ∈ spared) :
    Recorded fun xs (a : FaultyAccumulator) =>
      ∃ A, a.session.Keeps spared A ∧ P (a.books A xs) where
  author _ h := h
  element _ h := h
  flush t h := by
    obtain ⟨A, hA, hp⟩ := h
    obtain ⟨B, hB, he⟩ := entries_flush hA hk t _
    exact ⟨B, hB, he.induct hP hp⟩

theorem books_performAll {P : Books → Prop} (hP : ∀ {b b' : Books}, b.Entry b' → P b → P b')
    {faults : List Fault} (hf : Fault.Conforming faults) (thresholds : Thresholds)
    (policy : CounterReset) (h : P ((fresh faults thresholds policy).books ⟨{}, []⟩ []))
    (calls : List Call) :
    ∃ A, (performAll calls (fresh faults thresholds policy)).session.Keeps [.executeKeep] A ∧
      P ((performAll calls (fresh faults thresholds policy)).books A
        (performAllPosts calls (fresh faults thresholds policy))) :=
  (recorded_books hP (by simp)).performAll_of_nil calls ⟨_, Session.keeps_conforming hf, h⟩

/-- Finishing makes one more entry, if a transaction is open, and resets no counter. -/
theorem entries_finish (h : a.flushAll.session.Keeps spared A) (xs : List Batch) :
    ∃ B counters, a.finish.2.session.Keeps spared B ∧ B.current = none ∧
      (a.flushAll.books A xs).Entries
        ⟨B, counters, a.finish.2.report.written, a.finish.2.report.failedCommits, xs⟩ := by
  obtain ⟨⟨B, hB, o, ho, he⟩, -⟩ := Session.enters_endBatch h true
  refine ⟨B, ?_⟩
  have hn := he.current_eq
  have hopen := h.openTable?_eq
  rcases hx : a.flushAll.session.endBatch true with ⟨o', s⟩
  rw [hx] at hB ho
  dsimp only at hB ho
  subst ho
  cases o with
  | ok =>
    rw [finish_ok hx]
    generalize a.flushAll = b
    cases he with
    | idle _ _ => exact ⟨b.counters, hB.tell _, hn, .refl⟩
    | settled hA =>
      obtain ⟨⟨t, rows⟩, hA⟩ := Option.ne_none_iff_exists'.1 hA
      exact ⟨_, hB.tell _, hn, .single (.settled .switch (Ledger.openTable?_eq hA))⟩
  | error e =>
    obtain ⟨t, ht, hfin⟩ := finish_error hx
    rw [hfin]
    rw [ht] at hopen
    generalize a.flushAll = b
    cases he with
    | settledLate _ _ _ =>
      exact ⟨_, (hB.tell _).tell _, hn, .single (.settledLate .switch hopen.symm)⟩
    | lost _ _ => exact ⟨_, (hB.tell _).tell _, hn, .single (.lost .switch hopen.symm)⟩

end Accumulator
end MapLoader
