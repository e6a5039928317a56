import MapLoader.Proofs.Load.Books
import MapLoader.Proofs.Session.Fate

/-! What the outcome of a flush tells of the buffer, of the transaction and of the report. To make
way for a table the session may have to leave a transaction on another one, whose rows are then
committed, or lost and counted as a failed commit; after that the rows of the buffer are executed
together or stay where they are. -/

namespace MapLoader

/-- The rows that a transaction executed on a table and that are not committed. -/
def Transaction.discarded (t : Table) (x : Transaction) : List Row :=
  if x.committed then [] else x.rows t

/-- Counts a failed commit of the table that is charged with it, if there is one. -/
def Report.charge (r : Report) : Option Table → Report
  | none => r
  | some t => r.recordFailedCommit t

namespace Report

@[simp] theorem written_charge (r : Report) (c : Option Table) :
    (r.charge c).written = r.written := by cases c <;> rfl

@[simp] theorem failedFlushes_charge (r : Report) (c : Option Table) :
    (r.charge c).failedFlushes = r.failedFlushes := by cases c <;> rfl

theorem failedCommits_charge (r : Report) (c : Option Table) (t : Table) :
    (r.charge c).failedCommits.get t = r.failedCommits.get t + if c = some t then 1 else 0 := by
  cases c with
  | none => rfl
  | some u =>
    by_cases h : t = u
    · simp [charge, recordFailedCommit, h]
    · simp [charge, recordFailedCommit, h, Ne.symm h]

end Report

namespace Account

/-- The way is clear for a table: what is committed or open on it is as it was, and a transaction
on another table is over. Its rows are committed, or its table is charged with a failed commit. -/
structure Cleared (t : Table) (charged : Option Table) (a b : Account) : Prop where
  committed : b.committed t = a.committed t
  openRows : b.openRows t = a.openRows t
  batches : b.batches = a.batches
  fair : a.Fair → b.Fair
  turned {u : Table} : b.openTable? = some u → u = t
  fate {u : Table} {rows : List Row} : a.current = some (u, rows) → u ≠ t →
    (charged = none ∧ b.committed u = a.committed u ++ rows) ∨
      (charged = some u ∧ (b.committed u = a.committed u ∨ b.committed u = a.committed u ++ rows))

variable {closing : Prop} {t : Table} {charged : Option Table} {a b d : Account}

theorem Cleared.of_open {rows : List Row} (h : a.current = some (t, rows)) :
    Cleared t none a a where
  committed := rfl
  openRows := rfl
  batches := rfl
  fair := id
  turned hu := Option.some.inj (hu.symm.trans (Ledger.openTable?_eq h))
  fate hu hne := by
    cases hu.symm.trans h
    exact absurd rfl hne

theorem Cleared.of_closed (h : a.current = none) : Cleared t none a a where
  committed := rfl
  openRows := rfl
  batches := rfl
  fair := id
  turned hu := by simp [Ledger.openTable?, h] at hu
  fate hu _ := nomatch h.symm.trans hu

theorem Cleared.settled {u : Table} {rows : List Row} (h : a.current = some (u, rows))
    (hu : u ≠ t) (hc : charged = none ∨ charged = some u) : Cleared t charged a a.settled := by
  have hopen : a.openRows t = [] := (Ledger.openRows_eq h t).trans (if_neg hu)
  refine ⟨?_, ?_, batches_settled a, lasting_fair.settled h, nofun, fun hv _ => ?_⟩
  · rw [toLedger_settled, Ledger.committed_settled, hopen, List.append_nil]
  · rw [hopen]
    exact Ledger.openRows_eq_nil rfl t
  · cases hv.symm.trans h
    have hcom : a.settled.committed u = a.committed u ++ rows := by
      rw [toLedger_settled, Ledger.committed_settled, Ledger.openRows_eq h, if_pos rfl]
    exact hc.imp (⟨·, hcom⟩) (⟨·, .inr hcom⟩)

theorem Cleared.voided {u : Table} {rows : List Row} (h : a.current = some (u, rows))
    (hu : u ≠ t) : Cleared t (some u) a a.voided where
  committed := rfl
  openRows := ((Ledger.openRows_eq h t).trans (if_neg hu)).symm ▸ Ledger.openRows_eq_nil rfl t
  batches := rfl
  fair := lasting_fair.voided
  turned := nofun
  fate hv _ := by
    cases hv.symm.trans h
    exact .inr ⟨rfl, .inl rfl⟩

theorem Cleared.opens (h : Cleared t charged a b) (hb : b.current = none)
    {o : Except StoreError Unit} (ho : Opens t b o d) : Cleared t charged a d := by
  have hrows : b.openRows t = [] := Ledger.openRows_eq_nil hb t
  have hfair : a.Fair → d.Fair := fun ha => lasting_fair.opens hb (h.fair ha) ho
  cases ho with
  | refused e => exact h
  | attempted e =>
    exact ⟨h.committed, h.openRows, (batches_attempted b).trans h.batches, hfair, h.turned,
      h.fate⟩
  | opened =>
    have hopen : (b.opened t).openRows t = [] := (Ledger.openRows_eq rfl t).trans (ite_self _)
    exact ⟨h.committed, (hopen.trans hrows.symm).trans h.openRows,
      (batches_opened t b).trans h.batches, hfair, fun hu => (Option.some.inj hu).symm, h.fate⟩

/-- The table that the answer to the beginning of a batch charges with a failed commit. -/
def charged? : Except SessionError Session.BatchStart → Option Table
  | .error (.switchCommit u _ _) => some u
  | _ => none

theorem Begins.cleared {o : Except SessionError Session.BatchStart}
    (h : Begins closing t a o b) : Cleared t (charged? o) a b := by
  cases h with
  | stays h => exact .of_open h
  | turns hne h =>
    have hu {u : Table} {rows : List Row} (h : a.current = some (u, rows)) : u ≠ t :=
      fun he => hne (he ▸ Ledger.openTable?_eq h)
    cases h with
    | opened h => exact (Cleared.of_closed h).opens h .opened
    | refused e h ho => exact (Cleared.of_closed h).opens h ho
    | turned h => exact (Cleared.settled h (hu h) (.inl rfl)).opens rfl .opened
    | lost e h => exact .voided h (hu h)
    | settledLate e h _ => exact .settled h (hu h) (.inr rfl)
    | stranded e h ho => exact (Cleared.settled h (hu h) (.inl rfl)).opens rfl ho

theorem Cleared.begins (h : Cleared t charged a b) (hb : b.current = none)
    {o : Except SessionError Session.BatchStart} (hd : Begins closing t b o d) :
    Cleared t charged a d := by
  cases hd with
  | stays h => cases hb.symm.trans h
  | turns _ hd =>
    cases hd with
    | opened _ => exact h.opens hb .opened
    | refused e _ ho => exact h.opens hb ho
    | turned h | lost _ h | settledLate _ h _ | stranded _ h _ => cases hb.symm.trans h

end Account

namespace Accumulator

variable {spared : List CallPoint} {a : FaultyAccumulator} {A : Account}

theorem cleared_begin (h : a.session.Keeps spared A) (t : Table) :
    ∃ charged B, A.Cleared t charged B ∧ (a.begin t).2.session.Keeps spared B ∧
      (a.begin t).2.report = a.report.charge charged ∧
      ((a.begin t).1 = .ok () → B.openTable? = some t) := by
  obtain ⟨⟨B, hB, hb⟩, -⟩ := Session.enters_beginBatch h t
  have hcl := hb.cleared
  unfold begin
  generalize a.session.beginBatch t = x at hB hb hcl ⊢
  obtain ⟨o, s⟩ := x
  dsimp only at hB hb hcl ⊢
  cases o with
  | ok start => exact ⟨none, B, hcl, hB, rfl, fun _ => hb.openTable?_eq⟩
  | error e =>
    cases e with
    | switchCommit previous next source =>
      have hc : B.current = none := hb.current_of_switchCommit
      dsimp only
      generalize Notice.switchCommitFailed previous t _ source = n
      obtain ⟨⟨D, hD, hd⟩, -⟩ := Session.enters_beginBatch (hB.tell n) t
      generalize (s.tell n).beginBatch t = y at hD hd ⊢
      obtain ⟨o, u⟩ := y
      refine ⟨some previous, D, hcl.begins hc hd, hD, rfl, fun ho => ?_⟩
      cases o with
      | ok start => exact hd.openTable?_eq
      | error e => cases ho
    | switchOpen committed next source => exact ⟨none, B, hcl, hB, rfl, nofun⟩
    | connection source => exact ⟨none, B, hcl, hB, rfl, nofun⟩
    | illegalState requested current => exact ⟨none, B, hcl, hB, rfl, nofun⟩
    | batch table source => exact ⟨none, B, hcl, hB, rfl, nofun⟩

/-- A commit that is due settles the open transaction. If it fails, the transaction is lost, unless
the call that failed was the one that closes the connection. -/
theorem parts_commit (h : a.session.Keeps spared A) (ha : A.current ≠ none) (t : Table)
    (rows : Nat) : ((a.commit t rows).1 = .committed rows ∧
        (a.commit t rows).2.session.Keeps spared A.settled ∧
        (a.commit t rows).2.report = a.report) ∨
      ∃ e : StoreError, (a.commit t rows).1 = .commitFailed rows ∧
        (a.commit t rows).2.session.Keeps spared (A.parted (e.operation = .close)) ∧
        (a.commit t rows).2.report = a.report.recordFailedCommit t ∧
        (a.commit t rows).2.session.log.back? =
          some (.thresholdCommitFailed t (.connection e)) := by
  have hx := Session.endTransaction_settles h ha
  unfold commit Session.endBatch
  generalize a.session.endTransaction true = x at hx ⊢
  obtain ⟨o, s⟩ := x
  dsimp only at hx ⊢
  obtain ⟨rfl, hk⟩ | ⟨-, ⟨rfl, -, hk⟩ | ⟨rfl, hk⟩⟩ := hx
  · exact .inl ⟨rfl, hk.tell _, rfl⟩
  · exact .inr ⟨.injected .close, rfl, hk.tell _, rfl, Array.back?_push⟩
  · exact .inr ⟨.injected .commit, rfl, hk.tell _, rfl, Array.back?_push⟩

/-- What flushing a buffer that is not empty comes to, after the way was cleared with this account
and this report. -/
inductive Comes (spared : List CallPoint) (t : Table) (x : Batch) (B : Account) (r : Report) :
    FlushOutcome → FaultySession → Report → Prop
  | failed {s : FaultySession} (h : s.Keeps spared B) :
    Comes spared t x B r .failed s (r.recordFailedFlush t)
  | flushed {s : FaultySession} (ho : B.openTable? = some t)
    (h : s.Keeps spared (B.posted t x.rows)) :
    Comes spared t x B r (.flushed x.rows.length) s (r.recordWritten t x.rows.length)
  | committed {s : FaultySession} (ho : B.openTable? = some t)
    (h : s.Keeps spared (B.posted t x.rows).settled) :
    Comes spared t x B r (.committed x.rows.length) s (r.recordWritten t x.rows.length)
  | commitFailed {s : FaultySession} (e : StoreError) (ho : B.openTable? = some t)
    (h : s.Keeps spared ((B.posted t x.rows).parted (e.operation = .close)))
    (hlog : s.log.back? = some (.thresholdCommitFailed t (.connection e))) :
    Comes spared t x B r (.commitFailed x.rows.length) s
      ((r.recordWritten t x.rows.length).recordFailedCommit t)

theorem comes_flush (h : a.session.Keeps spared A) (hk : .executeKeep ∈ spared) {t : Table}
    (ht : a.buffered t ≠ 0) : ∃ charged B, A.Cleared t charged B ∧
      Comes spared t (a.buffers.batch t) B (a.report.charge charged) (a.flush t).1
        (a.flush t).2.session (a.flush t).2.report := by
  obtain ⟨charged, B, hcl, hB, hr, ho⟩ := cleared_begin h t
  obtain ⟨hwr, -, hw⟩ := write_posts hk hB ho
  refine ⟨charged, B, hcl, ?_⟩
  rw [← hr, ← hwr]
  rcases hx : a.write t with ⟨o, b⟩
  rw [hx] at hw
  dsimp only at hw ⊢
  obtain ⟨rfl, hopen, hB⟩ | ⟨e, rfl, hB⟩ := hw
  · rw [flush_landed ht hx]
    have hl : (b.landed t (a.buffered t) (a.buffers.batch t).rows.length).session.Keeps spared
        (B.posted t (a.buffers.batch t).rows) := hB.tell _
    have hlr : (b.landed t (a.buffered t) (a.buffers.batch t).rows.length).report =
        b.report.recordWritten t (a.buffers.batch t).rows.length := rfl
    generalize b.landed t (a.buffered t) (a.buffers.batch t).rows.length = c at hl hlr ⊢
    split
    · obtain ⟨rows, hx⟩ := Ledger.exists_current hopen
      have hne : (B.posted t (a.buffers.batch t).rows).current ≠ none := by simp [hx]
      obtain ⟨hout, hD, hcr⟩ | ⟨e, hout, hD, hcr, hlog⟩ :=
        parts_commit hl hne t (a.buffers.batch t).rows.length
      · rw [hout, hcr, hlr]
        exact .committed hopen hD
      · rw [hout, hcr, hlr]
        exact .commitFailed e hopen hD hlog
    · rw [hlr]
      exact .flushed hopen hl
  · rw [flush_missed ht hx]
    exact .failed (hB.tell _)

/-- Only a flush that fails is counted as failed. -/
theorem failedFlushes_flush (h : a.session.Keeps spared A) (hk : .executeKeep ∈ spared)
    (t : Table) : (a.flush t).2.report.failedFlushes =
      if (a.flush t).1 = .failed then a.report.failedFlushes.modify t (· + 1)
      else a.report.failedFlushes := by
  by_cases ht : a.buffered t = 0
  · rw [flush_empty ht]
    rfl
  · obtain ⟨charged, B, -, hc⟩ := comes_flush h hk ht
    generalize (a.flush t).1 = o, (a.flush t).2.session = s, (a.flush t).2.report = r at hc ⊢
    cases hc <;>
      simp [Report.recordFailedFlush, Report.recordWritten, Report.recordFailedCommit]

section

variable {t u : Table} {x : Batch} {charged : Option Table} {B : Account} {r r' : Report}
  {o : FlushOutcome} {s : FaultySession}

theorem Comes.other (h : Comes spared t x B r o s r') (hcl : A.Cleared t charged B)
    (hu : u ≠ t) : s.openTable? ≠ some u ∧ s.ledger.committed u = B.committed u ∧
      r'.failedCommits.get u = r.failedCommits.get u := by
  have hposted (ho : B.openTable? = some t) :
      (B.posted t x.rows).settled.committed u = B.committed u := by
    have hne : (B.posted t x.rows).toLedger.openTable? ≠ some u := by
      rw [Account.toLedger_posted, Ledger.openTable?_posted, ho]
      exact fun he => hu (Option.some.inj he).symm
    rw [Account.toLedger_settled, Ledger.committed_settled, Ledger.openRows_of_ne hne,
      List.append_nil]
    rfl
  cases h with
  | failed h =>
    rw [h.openTable?_eq, h.ledger_eq]
    exact ⟨fun he => hu (hcl.turned he), rfl, rfl⟩
  | flushed ho h =>
    rw [h.openTable?_eq, h.ledger_eq, Account.toLedger_posted, Ledger.openTable?_posted, ho]
    exact ⟨fun he => hu (Option.some.inj he).symm, rfl, rfl⟩
  | committed ho h =>
    rw [h.openTable?_eq, h.ledger_eq]
    exact ⟨(Option.some_ne_none u).symm, hposted ho, rfl⟩
  | commitFailed e ho h hlog =>
    rw [h.openTable?_eq, h.ledger_eq]
    refine ⟨?_, ?_, ?_⟩
    · rw [Ledger.openTable?, Account.current_parted]
      exact (Option.some_ne_none u).symm
    · cases decide (e.operation = .close) with
      | true => exact hposted ho
      | false => rfl
    · simp [Report.recordFailedCommit, Report.recordWritten, hu]

end

/-- The buffer of a table was executed in the transaction that was open on the table, or in a new
one. This is the latest transaction, and it is committed or not as is said. -/
structure Executed (t : Table) (rows : Nat) (kept : Bool) (a b : FaultyAccumulator) : Prop where
  rows_eq : rows = (a.buffers.batch t).rows.length
  emptied : b.buffered t = 0
  written : b.report.written = a.report.written.modify t (· + rows)
  transaction : ∃ x, b.session.store.inner.transactions.getLast? = some x ∧ x.committed = kept ∧
    x.rows t = a.session.ledger.openRows t ++ (a.buffers.batch t).rows

/-- A transaction on another table is over: its rows are committed, or it is counted as a failed
commit. -/
structure LeftBehind (u : Table) (rows : List Row) (a b : FaultyAccumulator) : Prop where
  ended : b.session.openTable? ≠ some u
  fate : (b.session.ledger.committed u = a.session.ledger.committed u ++ rows ∧
      b.report.failedCommits.get u = a.report.failedCommits.get u) ∨
    ((b.session.ledger.committed u = a.session.ledger.committed u ∨
        b.session.ledger.committed u = a.session.ledger.committed u ++ rows) ∧
      b.report.failedCommits.get u = a.report.failedCommits.get u + 1)

theorem leftBehind_flush (h : a.session.Keeps spared A) (hk : .executeKeep ∈ spared) {t u : Table}
    (ht : a.buffered t ≠ 0) (hu : u ≠ t) {rows : List Row}
    (hopen : a.session.ledger.current = some (u, rows)) : LeftBehind u rows a (a.flush t).2 := by
  obtain ⟨charged, B, hcl, hc⟩ := comes_flush h hk ht
  obtain ⟨hended, hcom, hcharges⟩ := hc.other hcl hu
  rw [h.ledger_eq] at hopen
  have hfate := hcl.fate hopen hu
  refine ⟨hended, ?_⟩
  rw [hcom, hcharges, h.ledger_eq, Report.failedCommits_charge]
  rcases hfate with ⟨rfl, hB⟩ | ⟨rfl, hB⟩
  · exact .inl ⟨hB, rfl⟩
  · exact .inr ⟨hB, by rw [if_pos rfl]⟩

/-- The transaction that a batch was posted to, by the state after it. -/
theorem Executed.of_history {t : Table} {kept : Bool} {charged : Option Table} {B D : Account}
    {b : FaultyAccumulator} {x : Transaction} {past : List Transaction}
    (h : a.session.Keeps spared A) (hcl : A.Cleared t charged B) (hD : b.session.Keeps spared D)
    (hb : b.buffers = a.buffers.clear t)
    (hw : b.report.written =
      a.report.written.modify t (· + (a.buffers.batch t).rows.length))
    (hx : D.history = x :: past) (hxc : x.committed = kept)
    (hxr : x.rows t = B.openRows t ++ (a.buffers.batch t).rows) :
    Executed t (a.buffers.batch t).rows.length kept a b where
  rows_eq := rfl
  emptied := by rw [buffered, hb, Buffers.size_clear, if_pos rfl]
  written := hw
  transaction := by
    rw [hD.getLast?_eq, hx, h.ledger_eq, ← hcl.openRows]
    exact ⟨x, rfl, hxc, hxr⟩

theorem current_posted_of_open {B : Account} {t : Table} (ho : B.openTable? = some t)
    (rows : List Row) : (B.posted t rows).current = some (t, B.openRows t ++ rows) := by
  obtain ⟨old, hx⟩ := Ledger.exists_current ho
  rw [Ledger.openRows_eq hx, if_pos rfl]
  simp [hx]

theorem buffered_of_flush {t : Table} (ho : (a.flush t).1 ≠ .empty) : a.buffered t ≠ 0 := by
  intro ht
  rw [flush_empty ht] at ho
  exact ho rfl

/-- What a flush with this outcome comes to. It clears the buffer unless it fails. -/
theorem flush_comes (h : a.session.Keeps spared A) (hk : .executeKeep ∈ spared) {t : Table}
    {o : FlushOutcome} (ho : (a.flush t).1 = o) (hne : o ≠ .empty) :
    ∃ charged B, A.Cleared t charged B ∧
      (a.flush t).2.buffers = (if o = .failed then a.buffers else a.buffers.clear t) ∧
      Comes spared t (a.buffers.batch t) B (a.report.charge charged) o (a.flush t).2.session
        (a.flush t).2.report := by
  subst ho
  have ht := buffered_of_flush hne
  obtain ⟨charged, B, hcl, hc⟩ := comes_flush h hk ht
  exact ⟨charged, B, hcl, (flush_frame t a ht).1, hc⟩

theorem flush_flushed (h : a.session.Keeps spared A) (hfair : A.Fair) (hk : .executeKeep ∈ spared)
    {t : Table} {rows : Nat} (ho : (a.flush t).1 = .flushed rows) :
    Executed t rows false a (a.flush t).2 ∧
      (a.flush t).2.session.ledger.current =
        some (t, a.session.ledger.openRows t ++ (a.buffers.batch t).rows) ∧
      (a.flush t).2.session.ledger.committed t = a.session.ledger.committed t := by
  obtain ⟨charged, B, hcl, hb, hc⟩ := flush_comes h hk ho (by simp)
  generalize hr : (a.flush t).2.report = r, hs : (a.flush t).2.session = s at hc
  cases hc with
  | flushed hopen hD =>
    have hcur := current_posted_of_open hopen (a.buffers.batch t).rows
    obtain ⟨x, past, hx, hxc, -, hxr⟩ :=
      (Account.lasting_fair.posted_of_open hopen (hcl.fair hfair) _).current hcur
    refine ⟨.of_history h hcl (hs ▸ hD) hb ?_ hx hxc hxr, ?_, ?_⟩
    · rw [hr]
      simp [Report.recordWritten]
    · rw [hD.ledger_eq, h.ledger_eq, ← hcl.openRows]
      exact hcur
    · rw [hD.ledger_eq, h.ledger_eq, ← hcl.committed]
      rfl

/-- A buffer that was committed is executed, and the rows of its transaction are all committed. -/
theorem flush_committed (h : a.session.Keeps spared A) (hfair : A.Fair)
    (hk : .executeKeep ∈ spared) {t : Table} {rows : Nat} (ho : (a.flush t).1 = .committed rows) :
    Executed t rows true a (a.flush t).2 ∧ (a.flush t).2.session.live = none ∧
      (a.flush t).2.session.ledger.committed t = a.session.ledger.committed t ++
        (a.session.ledger.openRows t ++ (a.buffers.batch t).rows) := by
  obtain ⟨charged, B, hcl, hb, hc⟩ := flush_comes h hk ho (by simp)
  generalize hr : (a.flush t).2.report = r, hs : (a.flush t).2.session = s at hc
  cases hc with
  | committed hopen hD =>
    have hcur := current_posted_of_open hopen (a.buffers.batch t).rows
    obtain ⟨-, x, past, -, hx, hxr, hxc⟩ :=
      (Account.lasting_fair.posted_of_open hopen (hcl.fair hfair) _).parted hcur true
    refine ⟨.of_history h hcl (hs ▸ hD) hb ?_ hx hxc hxr, (hD.released rfl).1, ?_⟩
    · rw [hr]
      simp [Report.recordWritten]
    · rw [hD.ledger_eq, h.ledger_eq, ← hcl.committed, ← hcl.openRows, Account.toLedger_settled,
        Ledger.committed_settled, Ledger.openRows_eq hcur, if_pos rfl]
      rfl

/-- A buffer whose commit failed is executed, but its transaction is over. It is committed just if
the call that failed was the one that closes the connection. -/
theorem flush_commitFailed (h : a.session.Keeps spared A) (hfair : A.Fair)
    (hk : .executeKeep ∈ spared) {t : Table} {rows : Nat}
    (ho : (a.flush t).1 = .commitFailed rows) :
    (a.flush t).2.session.live = none ∧ ∃ e : StoreError,
      (a.flush t).2.session.log.back? = some (.thresholdCommitFailed t (.connection e)) ∧
      Executed t rows (e.operation = .close) a (a.flush t).2 ∧
      (a.flush t).2.session.ledger.committed t = a.session.ledger.committed t ++
        if e.operation = .close then a.session.ledger.openRows t ++ (a.buffers.batch t).rows
        else [] := by
  obtain ⟨charged, B, hcl, hb, hc⟩ := flush_comes h hk ho (by simp)
  generalize hr : (a.flush t).2.report = r, hs : (a.flush t).2.session = s at hc
  cases hc with
  | commitFailed e hopen hD hlog =>
    have hcur := current_posted_of_open hopen (a.buffers.batch t).rows
    obtain ⟨-, x, past, -, hx, hxr, hxc⟩ :=
      (Account.lasting_fair.posted_of_open hopen (hcl.fair hfair) _).parted hcur
        (e.operation = .close)
    refine ⟨(hD.released (Account.current_parted _ _)).1, e, hlog,
      .of_history h hcl (hs ▸ hD) hb ?_ hx hxc hxr, ?_⟩
    · rw [hr]
      simp [Report.recordWritten, Report.recordFailedCommit]
    · rw [hD.ledger_eq, h.ledger_eq, ← hcl.committed, ← hcl.openRows]
      by_cases he : e.operation = .close
      · rw [if_pos he, Account.parted, if_pos (decide_eq_true he), Account.toLedger_settled,
          Ledger.committed_settled, Ledger.openRows_eq hcur, if_pos rfl]
        rfl
      · rw [if_neg he, Account.parted, if_neg (by simpa using he), List.append_nil]
        rfl

/-- A buffer that could not be flushed stays, and nothing of it was executed. -/
structure Kept (t : Table) (a b : FaultyAccumulator) : Prop where
  buffers : b.buffers = a.buffers
  executed (u : Table) : b.session.store.inner.executed u = a.session.store.inner.executed u
  openRows : b.session.ledger.openRows t = a.session.ledger.openRows t
  committed : b.session.ledger.committed t = a.session.ledger.committed t
  written : b.report.written = a.report.written
  failedFlushes : b.report.failedFlushes = a.report.failedFlushes.modify t (· + 1)

theorem flush_failed (h : a.session.Keeps spared A) (hk : .executeKeep ∈ spared) {t : Table}
    (ho : (a.flush t).1 = .failed) : Kept t a (a.flush t).2 := by
  obtain ⟨charged, B, hcl, hb, hc⟩ := flush_comes h hk ho (by simp)
  generalize hr : (a.flush t).2.report = r, hs : (a.flush t).2.session = s at hc
  cases hc with
  | failed hD =>
    refine ⟨hb, fun u => ?_, ?_, ?_, ?_, ?_⟩
    · rw [hs, hD.executed_eq, h.executed_eq, Account.executed_of_batches hcl.batches]
    · rw [hs, hD.ledger_eq, h.ledger_eq, hcl.openRows]
    · rw [hs, hD.ledger_eq, h.ledger_eq, hcl.committed]
    · rw [hr]
      simp [Report.recordFailedFlush]
    · rw [failedFlushes_flush h hk, if_pos ho]

/-- The session of an accumulator that can be reached keeps a fair account. -/
theorem fair_performAll {faults : List Fault} (hf : Fault.Conforming faults)
    (thresholds : Thresholds) (policy : CounterReset) (calls : List Call) :
    ∃ A, (performAll calls (fresh faults thresholds policy)).session.Keeps [.executeKeep] A ∧
      A.Fair :=
  books_performAll (P := fun b => b.account.Fair) (fun he => Account.lasting_fair.entry he) hf
    thresholds policy Account.fair_empty calls

/-- What the outcome of a flush tells, in every state that adding and flushing can reach under any
faults that drop the batches they strike. No other buffer is touched. Nothing is done just if the
buffer is empty. A buffer that is flushed or committed is executed as a whole in the transaction on
its table, which then stays open, or is committed with all its rows. A flush that fails keeps the
buffer and executes none of it. And a transaction on another table is over, unless the buffer was
empty: it is committed, or a failed commit is counted for it. -/
theorem flush_outcome_tells (faults : List Fault) (hf : Fault.Conforming faults)
    (thresholds : Thresholds) (policy : CounterReset) (calls : List Call) (t : Table) :
    let a := performAll calls (fresh faults thresholds policy)
    let outcome := (a.flush t).1
    let b := (a.flush t).2
    let before := a.session.ledger
    let after := b.session.ledger
    (∀ u, u ≠ t → b.buffers.batch u = a.buffers.batch u) ∧
      (outcome = .empty ↔ a.buffered t = 0) ∧ (outcome = .empty → b = a) ∧
      (∀ rows, outcome = .flushed rows → Executed t rows false a b ∧
        after.current = some (t, before.openRows t ++ (a.buffers.batch t).rows) ∧
        after.committed t = before.committed t) ∧
      (∀ rows, outcome = .committed rows → Executed t rows true a b ∧ b.session.live = none ∧
        after.committed t =
          before.committed t ++ (before.openRows t ++ (a.buffers.batch t).rows)) ∧
      (outcome = .failed → Kept t a b) ∧
      (outcome ≠ .empty → ∀ u rows, u ≠ t → before.current = some (u, rows) →
        LeftBehind u rows a b) := by
  obtain ⟨A, hA, hfair⟩ := fair_performAll hf thresholds policy calls
  generalize performAll calls (fresh faults thresholds policy) = a at hA ⊢
  have hk : CallPoint.executeKeep ∈ [CallPoint.executeKeep] := List.mem_singleton.2 rfl
  have hempty : (a.flush t).1 = .empty ↔ a.buffered t = 0 := by
    refine ⟨fun ho => Decidable.byContradiction fun ht => ?_, fun ht => by rw [flush_empty ht]⟩
    obtain ⟨charged, B, -, hc⟩ := comes_flush hA hk ht
    rw [ho] at hc
    cases hc
  refine ⟨fun u hu => ?_, hempty, fun ho => by rw [flush_empty (hempty.1 ho)],
    fun rows ho => flush_flushed hA hfair hk ho, fun rows ho => flush_committed hA hfair hk ho,
    fun ho => flush_failed hA hk ho, fun ho u rows hu hopen =>
      leftBehind_flush hA hk (buffered_of_flush ho) hu hopen⟩
  by_cases ht : a.buffered t = 0
  · rw [flush_empty ht]
  · rw [(flush_frame t a ht).1]
    split
    · rfl
    · exact a.buffers.batch_clear hu

def handThresholds : Thresholds := ⟨100, 3, 15⟩

def mixedFlushFaults : List Fault :=
  [{ point := .commit, table := some "users", times := some 1 },
    { point := .execute, table := some "nodes", times := some 1 }]

/-- The author is executed but his commit is struck when the session turns to the nodes, whose
buffer then stays as it is. -/
theorem flush_outcome_tells_failed :
    Fault.Conforming mixedFlushFaults ∧
      let a := performAll [.add (.node ⟨1, { user := ⟨7, "ann"⟩ }, ⟨⟨0⟩, ⟨0⟩⟩, .empty⟩),
        .flush .users] (fresh mixedFlushFaults handThresholds .global)
      (a.flush .nodes).1 = .failed ∧ Kept .nodes a (a.flush .nodes).2 ∧
        LeftBehind .users [[.integer 7, .text "ann"]] a (a.flush .nodes).2 := by
  have hf : Fault.Conforming mixedFlushFaults := by
    unfold Fault.Conforming
    decide
  obtain ⟨-, -, -, -, -, hfailed, hleft⟩ := flush_outcome_tells mixedFlushFaults hf handThresholds
    .global [.add (.node ⟨1, { user := ⟨7, "ann"⟩ }, ⟨⟨0⟩, ⟨0⟩⟩, .empty⟩), .flush .users] .nodes
  exact ⟨hf, by decide +kernel, hfailed (by decide +kernel),
    hleft (by decide +kernel) .users _ (by decide) (by decide +kernel)⟩

/-- What a flush loses whose commit fails, in every state that adding and flushing can reach under
any faults that drop the batches they strike. The number in its outcome is that of the rows of the
buffer. If the commit itself failed, those are discarded together with the rows that waited in the
transaction; if only closing failed, all of them are committed. So the number is that of the
discarded rows just if the commit failed and nothing waited, or closing failed and the buffer
expanded to no row. -/
theorem commitFailed_discards (faults : List Fault) (hf : Fault.Conforming faults)
    (thresholds : Thresholds) (policy : CounterReset) (calls : List Call) (t : Table) (rows : Nat)
    (ho : ((performAll calls (fresh faults thresholds policy)).flush t).1 = .commitFailed rows) :
    let a := performAll calls (fresh faults thresholds policy)
    let b := (a.flush t).2
    let waiting := a.session.ledger.openRows t
    rows = (a.buffers.batch t).rows.length ∧ b.session.live = none ∧ ∃ e x,
      b.session.log.back? = some (.thresholdCommitFailed t (.connection e)) ∧
        b.session.store.inner.transactions.getLast? = some x ∧
        x.rows t = waiting ++ (a.buffers.batch t).rows ∧
        b.session.ledger.committed t =
          a.session.ledger.committed t ++ (if e.operation = .close then x.rows t else []) ∧
        (x.discarded t).length = (if e.operation = .close then 0 else waiting.length + rows) ∧
        ((x.discarded t).length = rows ↔
          if e.operation = .close then rows = 0 else waiting = []) := by
  obtain ⟨A, hA, hfair⟩ := fair_performAll hf thresholds policy calls
  generalize performAll calls (fresh faults thresholds policy) = a at hA ho ⊢
  obtain ⟨hlive, e, hlog, hx, hcom⟩ := flush_commitFailed hA hfair (List.mem_singleton.2 rfl) ho
  obtain ⟨x, hlast, hkept, hrows⟩ := hx.transaction
  refine ⟨hx.rows_eq, hlive, e, x, hlog, hlast, hrows, hrows ▸ hcom, ?_⟩
  rw [Transaction.discarded, hkept, hrows]
  by_cases he : e.operation = .close
  · simp [he, eq_comm]
  · simp [he, ← hx.rows_eq]

def everyCommitFaults : List Fault := [{ point := .commit }]

def thirdNodeCalls : List Call :=
  [.add (.node ⟨1, {}, ⟨⟨0⟩, ⟨0⟩⟩, .empty⟩), .add (.node ⟨2, {}, ⟨⟨0⟩, ⟨0⟩⟩, .empty⟩),
    .flush .nodes, .add (.node ⟨3, {}, ⟨⟨0⟩, ⟨0⟩⟩, .empty⟩)]

theorem conforming_everyCommitFaults : Fault.Conforming everyCommitFaults := by
  unfold Fault.Conforming
  decide

/-- The outcome tells of one row, and three are discarded. -/
theorem commitFailed_discards_waiting :
    Fault.Conforming everyCommitFaults ∧
      let a := performAll thirdNodeCalls (fresh everyCommitFaults handThresholds .global)
      (a.flush .nodes).1 = .commitFailed 1 ∧
        ∃ x, (a.flush .nodes).2.session.store.inner.transactions.getLast? = some x ∧
          (x.discarded .nodes).length = 3 := by
  obtain ⟨-, -, e, x, hlog, hx, -, -, hlen, -⟩ := commitFailed_discards everyCommitFaults
    conforming_everyCommitFaults handThresholds .global thirdNodeCalls .nodes 1 rfl
  cases hlog
  exact ⟨conforming_everyCommitFaults, rfl, x, hx, hlen.trans (by decide +kernel)⟩

/-- The number in the outcome is not that of the discarded rows. -/
theorem commitFailed_hides_rows : ¬ ∀ (faults : List Fault), Fault.Conforming faults →
    ∀ (thresholds : Thresholds) (policy : CounterReset) (calls : List Call) (t : Table)
      (rows : Nat) (x : Transaction),
    let a := performAll calls (fresh faults thresholds policy)
    (a.flush t).1 = .commitFailed rows →
      (a.flush t).2.session.store.inner.transactions.getLast? = some x →
      (x.discarded t).length = rows := fun h =>
  absurd (h everyCommitFaults conforming_everyCommitFaults handThresholds .global thirdNodeCalls
    .nodes 1 _ rfl rfl) (by decide +kernel)

end Accumulator
end MapLoader
