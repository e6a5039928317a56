import MapLoader.Proofs.Load.Monitor
import MapLoader.Proofs.Session.Ledger

/-! What flushing a buffer enters into the account of the session. Either nothing is posted and
the buffer stays, or all its rows are posted to a transaction for its table and the buffer is
cleared; the transaction before it may have been settled or lost on the way. -/

namespace MapLoader

namespace Account

/-- What opening for a table comes to if a transaction that could not be committed is followed by
one more try. Only if a call was struck is there anything but a plain beginning. -/
inductive Begun (closing struck : Prop) (t : Table) (a : Account) :
    Except SessionError Unit → Account → Prop
  | direct {start : Session.BatchStart} {b : Account} (h : Begins closing t a (.ok start) b) :
    Begun closing struck t a (.ok ()) b
  | retried {e : SessionError} {o : Except SessionError Session.BatchStart} {b d : Account}
    (hs : struck) (h : Begins closing t a (.error e) b) (h' : Begins closing t b o d) :
    Begun closing struck t a (o.map fun _ => ()) d
  | failed {e : SessionError} {b : Account} (hs : struck) (h : Begins closing t a (.error e) b) :
    Begun closing struck t a (.error e) b

inductive Writes (closing struck : Prop) (x : Batch) (a : Account) :
    Except SessionError Nat → Account → Prop
  | posted {b : Account} (h : Begun closing struck x.table a (.ok ()) b) :
    Writes closing struck x a (.ok x.rows.length) (b.posted x.table x.rows)
  | failed {o : Except SessionError Unit} {b : Account} (e : SessionError) (hs : struck)
    (h : Begun closing struck x.table a o b) : Writes closing struck x a (.error e) b

inductive Flushed (closing struck : Prop) (x : Batch) (a : Account) :
    FlushOutcome → Account → Prop
  | failed {e : SessionError} {b : Account} (h : Writes closing struck x a (.error e) b) :
    Flushed closing struck x a .failed b
  | flushed {n : Nat} {b : Account} (h : Writes closing struck x a (.ok n) b) :
    Flushed closing struck x a (.flushed n) b
  | committed {n : Nat} {b d : Account} (h : Writes closing struck x a (.ok n) b)
    (h' : Ends closing b true (.ok ()) d) : Flushed closing struck x a (.committed n) d
  | commitFailed {n : Nat} {e : StoreError} {b d : Account} (hs : struck)
    (h : Writes closing struck x a (.ok n) b) (h' : Ends closing b true (.error e) d) :
    Flushed closing struck x a (.commitFailed n) d

variable {closing struck struck' : Prop} {t : Table} {a b : Account}

theorem Begun.mono {o : Except SessionError Unit} (h : Begun closing struck t a o b)
    (hs : struck → struck') : Begun closing struck' t a o b := by
  cases h with
  | direct h => exact .direct h
  | retried h₀ h h' => exact .retried (hs h₀) h h'
  | failed h₀ h => exact .failed (hs h₀) h

theorem Begun.openTable?_eq (h : Begun closing struck t a (.ok ()) b) :
    b.openTable? = some t := by
  generalize ho : (Except.ok () : Except SessionError Unit) = o at h
  cases h with
  | direct h => exact h.openTable?_eq
  | @retried _ o _ _ hs h h' =>
    cases o with
    | ok start => exact h'.openTable?_eq
    | error e => cases ho
  | failed hs h => cases ho

theorem Begun.plain {o : Except SessionError Unit} (h : Begun closing struck t a o b)
    (hs : ¬ struck) : o = .ok () ∧ ∃ start, Begins closing t a (.ok start) b := by
  cases h with
  | direct h => exact ⟨rfl, _, h⟩
  | retried hs' _ _ => exact absurd hs' hs
  | failed hs' _ => exact absurd hs' hs

theorem Begun.struck_of_error {e : SessionError} (h : Begun closing struck t a (.error e) b) :
    struck := by
  by_cases hs : struck
  · exact hs
  · cases (h.plain hs).1

theorem Steady.begun {P : Account → Prop} (S : Steady P) {o : Except SessionError Unit} (h : P a)
    (he : Begun closing struck t a o b) : P b := by
  cases he with
  | direct he => exact S.begins h he
  | retried _ he he' => exact S.begins (S.begins h he) he'
  | failed _ he => exact S.begins h he

namespace Writes

variable {x : Batch} {o : Except SessionError Nat} {n : Nat}

theorem mono (h : Writes closing struck x a o b) (hs : struck → struck') :
    Writes closing struck' x a o b := by
  cases h with
  | posted h => exact .posted (h.mono hs)
  | failed e h₀ h => exact .failed e (hs h₀) (h.mono hs)

theorem struck_of_error {e : SessionError} (h : Writes closing struck x a (.error e) b) :
    struck := by
  cases h with
  | failed _ hs _ => exact hs

theorem rows_eq (h : Writes closing struck x a (.ok n) b) : n = x.rows.length := by
  cases h with
  | posted _ => rfl

/-- A batch that was handed over was executed as a whole, and nothing else was. -/
theorem batches_eq (h : Writes closing struck x a (.ok n) b) :
    b.batches = a.batches ++ [x.entry] := by
  cases h with
  | posted hb => simp [(steady_batches a.batches).begun rfl hb, Batch.entry]

theorem batches_of_error {e : SessionError} (h : Writes closing struck x a (.error e) b) :
    b.batches = a.batches := by
  cases h with
  | failed _ _ hb => exact (steady_batches a.batches).begun rfl hb

end Writes

theorem Lasting.writes {P : Account → Prop} (L : Lasting P) {x : Batch}
    {o : Except SessionError Nat} (h : P a) (he : Writes closing struck x a o b) : P b := by
  cases he with
  | posted hb => exact L.posted_of_open hb.openTable?_eq (L.begun h hb) x.rows
  | failed _ _ hb => exact L.begun h hb

theorem Lasting.flushed {P : Account → Prop} (L : Lasting P) {x : Batch} {o : FlushOutcome}
    (h : P a) (he : Flushed closing struck x a o b) : P b := by
  cases he with
  | failed hw => exact L.writes h hw
  | flushed hw => exact L.writes h hw
  | committed hw he => exact L.ends (L.writes h hw) he
  | commitFailed _ hw he => exact L.ends (L.writes h hw) he

/-- Unless flushing failed, the batch was executed as a whole, and nothing else was. -/
theorem Flushed.batches_eq {x : Batch} {o : FlushOutcome} (h : Flushed closing struck x a o b) :
    b.batches = a.batches ++ if o ≠ .failed then [x.entry] else [] := by
  cases h with
  | failed hw => simp [hw.batches_of_error]
  | flushed hw => simp [hw.batches_eq]
  | committed hw he => simp [(steady_batches _).ends rfl he, hw.batches_eq]
  | commitFailed _ hw he => simp [(steady_batches _).ends rfl he, hw.batches_eq]

theorem Flushed.executed_eq {x : Batch} {o : FlushOutcome} (h : Flushed closing struck x a o b)
    (u : Table) :
    b.executed u = a.executed u ++ if o ≠ .failed ∧ x.table = u then x.rows else [] := by
  rw [Account.executed_eq, h.batches_eq, Account.executed_eq]
  by_cases ho : o = .failed <;> simp [ho, Batch.entry]

end Account

def FlushOutcome.rows : FlushOutcome → Nat
  | .flushed n | .committed n | .commitFailed n => n
  | .empty | .failed => 0

theorem Account.Flushed.rows_eq {closing struck : Prop} {x : Batch} {a b : Account}
    {o : FlushOutcome} (h : Flushed closing struck x a o b) :
    o.rows = if o ≠ .failed then x.rows.length else 0 := by
  cases h with
  | failed _ => rfl
  | flushed hw => exact hw.rows_eq
  | committed hw _ => exact hw.rows_eq
  | commitFailed _ hw _ => exact hw.rows_eq

namespace Buffers

theorem batch_clear (b : Buffers) {t u : Table} (h : u ≠ t) : (b.clear t).batch u = b.batch u := by
  cases t <;> cases u <;> first | rfl | exact absurd rfl h

@[simp] theorem rows_batch_clear (b : Buffers) (t u : Table) :
    ((b.clear t).batch u).rows = if u = t then [] else (b.batch u).rows := by
  cases t <;> cases u <;> rfl

end Buffers

namespace Accumulator

abbrev FaultyAccumulator := Accumulator (Faulty Memory) (Faulty.Connection Memory.Connection)

def fresh (faults : List Fault) (thresholds : Thresholds) (policy : CounterReset) :
    FaultyAccumulator := .new { faults, inner := {} } thresholds policy

/-- Unless a call was struck, no failure was counted. -/
def Blames (a b : FaultyAccumulator) : Prop :=
  a.session.store.strikes < b.session.store.strikes ∨ b.report.failures = a.report.failures

variable {spared : List CallPoint} {a : FaultyAccumulator} {A : Account}

theorem keeps_begin (h : a.session.Keeps spared A) (t : Table) :
    (∃ B, (a.begin t).2.session.Keeps spared B ∧
      Account.Begun (.close ∉ spared)
        (a.session.store.strikes < (a.begin t).2.session.store.strikes) t A (a.begin t).1 B) ∧
      Blames a (a.begin t).2 := by
  obtain ⟨⟨B, hB, hb⟩, hs⟩ := Session.enters_beginBatch h t
  unfold begin
  generalize a.session.beginBatch t = x at hB hb hs ⊢
  obtain ⟨o, s⟩ := x
  dsimp only at hB hb hs
  cases o with
  | ok start => exact ⟨⟨B, hB, .direct hb⟩, .inr rfl⟩
  | error e =>
    cases e with
    | switchCommit previous next source =>
      dsimp only
      generalize hn : Notice.switchCommitFailed previous t _ source = n
      have hm := Session.sees_beginBatch Faulty.monitor t (s.tell n)
      obtain ⟨⟨D, hD, hd⟩, -⟩ := Session.enters_beginBatch (hB.tell n) t
      generalize (s.tell n).beginBatch t = y at hm hD hd ⊢
      obtain ⟨o, u⟩ := y
      have hlt := Nat.lt_of_lt_of_le (hs _ rfl) hm.always.1
      exact ⟨⟨D, hD, .retried hlt hb hd⟩, .inl hlt⟩
    | switchOpen committed next source => exact ⟨⟨B, hB, .failed (hs _ rfl) hb⟩, .inr rfl⟩
    | connection source => exact ⟨⟨B, hB, .failed (hs _ rfl) hb⟩, .inr rfl⟩
    | illegalState requested current => exact ⟨⟨B, hB, .failed (hs _ rfl) hb⟩, .inr rfl⟩
    | batch table source => exact ⟨⟨B, hB, .failed (hs _ rfl) hb⟩, .inr rfl⟩

/-- Beginning touches neither the buffers nor the count of rows written. -/
theorem begin_frame {σ κ : Type} [Store σ κ] (t : Table) (a : Accumulator σ κ) :
    (a.begin t).2.buffers = a.buffers ∧ (a.begin t).2.report.written = a.report.written := by
  unfold begin
  split <;> exact ⟨rfl, rfl⟩

theorem keeps_write (h : a.session.Keeps spared A) (hk : .executeKeep ∈ spared) (t : Table) :
    (∃ B, (a.write t).2.session.Keeps spared B ∧
      Account.Writes (.close ∉ spared)
        (a.session.store.strikes < (a.write t).2.session.store.strikes) (a.buffers.batch t) A
        (a.write t).1 B) ∧
      Blames a (a.write t).2 := by
  obtain ⟨⟨B, hB, hb⟩, hbl⟩ := keeps_begin h t
  have hf := begin_frame t a
  have hle := (attended_begin Faulty.monitor t a).always.1
  have hx := a.buffers.table_batch t
  unfold write
  generalize a.begin t = x at hB hb hbl hf hle ⊢
  obtain ⟨o, b⟩ := x
  dsimp only at hB hb hbl hf hle
  rw [← hx] at hb
  cases o with
  | error e => exact ⟨⟨B, hB, .failed e hb.struck_of_error hb⟩, hbl⟩
  | ok =>
    dsimp only
    rw [hf.1]
    obtain ⟨⟨D, hD, hd⟩, hs⟩ := Session.enters_insert hB hk hb.openTable?_eq
    have hm := (Session.sees_insert Faulty.monitor (a.buffers.batch t) b.session).always.1
    generalize b.session.insert (a.buffers.batch t) = y at hm hD hd hs ⊢
    obtain ⟨o, u⟩ := y
    dsimp only at hm hD hd hs ⊢
    have hb := hb.mono fun hlt => Nat.lt_of_lt_of_le hlt hm
    have hbl : Blames a { b with session := u } :=
      hbl.imp_left fun hlt => Nat.lt_of_lt_of_le hlt hm
    cases hd with
    | posted => exact ⟨⟨_, hD, .posted hb⟩, hbl⟩
    | spoiled e => exact ⟨⟨B, hD, .failed _ (Nat.lt_of_le_of_lt hle (hs _ rfl)) hb⟩, hbl⟩

theorem write_frame {σ κ : Type} [Store σ κ] (t : Table) (a : Accumulator σ κ) :
    (a.write t).2.buffers = a.buffers ∧ (a.write t).2.report.written = a.report.written := by
  have hf := begin_frame t a
  unfold write
  generalize a.begin t = x at hf ⊢
  obtain ⟨o, b⟩ := x
  cases o <;> exact hf

/-- Committing after a flush ends the transaction, and fails only if a call was struck. -/
theorem keeps_commit (h : a.session.Keeps spared A) (t : Table) (rows : Nat) :
    ∃ B, (a.commit t rows).2.session.Keeps spared B ∧
      (((a.commit t rows).1 = .committed rows ∧
          Account.Ends (.close ∉ spared) A true (.ok ()) B ∧
          (a.commit t rows).2.report = a.report) ∨
        ∃ e, (a.commit t rows).1 = .commitFailed rows ∧
          Account.Ends (.close ∉ spared) A true (.error e) B ∧
          a.session.store.strikes < (a.commit t rows).2.session.store.strikes) := by
  obtain ⟨⟨B, hB, o', ho, he⟩, hs⟩ := Session.enters_endBatch h true
  unfold commit
  generalize a.session.endBatch true = x at hB ho hs ⊢
  obtain ⟨o, s⟩ := x
  dsimp only at hB ho hs ⊢
  cases o' with
  | ok =>
    rw [ho]
    exact ⟨B, hB.tell _, .inl ⟨rfl, he, rfl⟩⟩
  | error e =>
    have hs := hs _ ho
    rw [ho]
    exact ⟨B, hB.tell _, .inr ⟨e, rfl, he, hs⟩⟩

theorem keeps_flush (h : a.session.Keeps spared A) (hk : .executeKeep ∈ spared) {t : Table}
    (ht : a.buffered t ≠ 0) : (∃ B, (a.flush t).2.session.Keeps spared B ∧
      Account.Flushed (.close ∉ spared)
        (a.session.store.strikes < (a.flush t).2.session.store.strikes) (a.buffers.batch t) A
        (a.flush t).1 B) ∧ Blames a (a.flush t).2 := by
  obtain ⟨⟨B, hB, hw⟩, hbl⟩ := keeps_write h hk t
  have hle := (attended_write Faulty.monitor t a).always.1
  rcases hr : a.write t with ⟨e | rows, b⟩ <;> rw [hr] at hB hw hbl hle <;>
    dsimp only at hB hw hbl hle
  · rw [flush_missed ht hr]
    exact ⟨⟨B, hB.tell _, .failed hw⟩, .inl hw.struck_of_error⟩
  · have hl : (b.landed t (a.buffered t) rows).session.Keeps spared B := hB.tell _
    rw [flush_landed ht hr]
    generalize hc : b.landed t (a.buffered t) rows = c at hl ⊢
    have hst : c.session.store = b.session.store := by rw [← hc]; rfl
    have hrep : c.report.failures = b.report.failures := by rw [← hc]; rfl
    split
    · obtain ⟨D, hD, ho⟩ := keeps_commit hl t rows
      have hm := (attended_commit Faulty.monitor t rows c).always.1
      rw [hst] at hm ho
      have hw := hw.mono fun hlt => Nat.lt_of_lt_of_le hlt hm
      obtain ⟨ho, he, hcr⟩ | ⟨e, ho, he, hs⟩ := ho <;> rw [ho]
      · refine ⟨⟨D, hD, .committed hw he⟩, ?_⟩
        rw [Blames, hcr, hrep]
        exact hbl.imp_left fun hlt => Nat.lt_of_lt_of_le hlt hm
      · have hs := Nat.lt_of_le_of_lt hle hs
        exact ⟨⟨D, hD, .commitFailed hs hw he⟩, .inl hs⟩
    · rw [Blames, hst, hrep]
      exact ⟨⟨B, hl, .flushed hw⟩, hbl⟩

theorem keeps_finish (h : a.flushAll.session.Keeps spared A) :
    ∃ B o, Account.Ends (.close ∉ spared) A true o B ∧ a.finish.2.session.Keeps spared B ∧
      a.finish.2.buffers = a.flushAll.buffers ∧
      (o = .ok () ∧ a.finish.1 = .ok a.flushAll.report ∨
        (∃ e, o = .error e ∧ a.finish.1 = .error (.connection e)) ∧
          a.flushAll.session.store.strikes < a.finish.2.session.store.strikes) := by
  obtain ⟨⟨B, hB, o, ho, he⟩, hs⟩ := Session.enters_endBatch h true
  refine ⟨B, o, he, ?_⟩
  rcases hx : a.flushAll.session.endBatch true with ⟨o', s⟩
  rw [hx] at hB ho hs
  dsimp only at hB ho hs
  subst ho
  cases o with
  | ok =>
    rw [finish_ok hx]
    generalize a.flushAll = b
    exact ⟨hB.tell _, rfl, .inl ⟨rfl, rfl⟩⟩
  | error e =>
    obtain ⟨t, -, hfin⟩ := finish_error hx
    rw [hfin]
    generalize a.flushAll = b at hs
    exact ⟨(hB.tell _).tell _, rfl, .inr ⟨⟨e, rfl, rfl⟩, hs _ rfl⟩⟩

/-- Finishing executes nothing after the last flush. -/
theorem executed_finish (h : a.flushAll.session.Keeps spared A) (t : Table) :
    a.finish.2.session.store.inner.executed t = a.flushAll.session.store.inner.executed t := by
  obtain ⟨B, o, he, hB, -⟩ := keeps_finish h
  rw [hB.executed_eq, h.executed_eq,
    Account.executed_of_batches ((Account.steady_batches _).ends rfl he)]

section

variable {σ κ : Type} [Store σ κ] (t : Table) (a : Accumulator σ κ)

theorem commit_frame (rows : Nat) : (a.commit t rows).2.buffers = a.buffers ∧
    (a.commit t rows).2.report.written = a.report.written ∧ (a.commit t rows).1.rows = rows ∧
    (a.commit t rows).1 ≠ .failed := by
  unfold commit
  split <;> exact ⟨rfl, rfl, rfl, nofun⟩

/-- Flushing clears the buffer and counts the rows, or fails and does neither. -/
theorem flush_frame (ht : a.buffered t ≠ 0) :
    (a.flush t).2.buffers = (if (a.flush t).1 = .failed then a.buffers else a.buffers.clear t) ∧
      ∀ u, (a.flush t).2.report.written.get u =
        a.report.written.get u + if u = t then (a.flush t).1.rows else 0 := by
  have hw := write_frame t a
  rcases hr : a.write t with ⟨e | rows, b⟩ <;> rw [hr] at hw <;> dsimp only at hw
  · rw [flush_missed ht hr]
    exact ⟨hw.1, fun u => by simp [missed, tell, Report.recordFailedFlush, hw.2, FlushOutcome.rows]⟩
  · have hl : (b.landed t (a.buffered t) rows).buffers = a.buffers.clear t :=
      congrArg (Buffers.clear · t) hw.1
    have hn (u : Table) : (b.landed t (a.buffered t) rows).report.written.get u =
        a.report.written.get u + if u = t then rows else 0 := by
      by_cases hu : u = t <;> simp [landed, Report.recordWritten, hw.2, hu]
    rw [flush_landed ht hr]
    split
    · obtain ⟨hb, hrep, hrows, hf⟩ := commit_frame t (b.landed t (a.buffered t) rows) rows
      rw [if_neg hf, hb, hrep, hrows]
      exact ⟨hl, hn⟩
    · exact ⟨hl, hn⟩

end

end Accumulator
end MapLoader
