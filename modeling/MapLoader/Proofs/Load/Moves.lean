import MapLoader.Load.Ingest

/-! What an accumulator does, move by move. Adding an element comes down to four moves: its
author is buffered, some buffers are written, the element is buffered, some more buffers are
written. So whatever these moves keep is kept by every load. -/

namespace MapLoader

def ElementFilter.admitted (f : ElementFilter) (es : List Entity) : List Entity :=
  es.filter fun e => f.includes e.kind

def Entity.tables : Entity → List Table
  | .node _ => [.nodes]
  | .way _ => [.ways, .wayNodes]
  | .relation _ => [.relations, .relationMembers]

def Buffers.addElement (b : Buffers) : Entity → Buffers
  | .node n => b.addNode n
  | .way w => b.addWay w
  | .relation r => b.addRelation r

namespace Accumulator

variable {σ κ : Type}

def author (u : User) (a : Accumulator σ κ) : Accumulator σ κ :=
  { a with buffers := a.buffers.addUser u }

def element (e : Entity) (a : Accumulator σ κ) : Accumulator σ κ :=
  { a with buffers := a.buffers.addElement e }

variable [Store σ κ]

/-- The state after the buffer of a table was written, before a commit that this makes due. -/
def landed (t : Table) (entries rows : Nat) (a : Accumulator σ κ) : Accumulator σ κ :=
  { a with
    buffers := a.buffers.clear t
    report := a.report.recordWritten t rows
    counters := a.counters.add t entries
    session := a.session.tell (.flushed t rows) }

def missed (t : Table) (entries : Nat) (e : SessionError) (a : Accumulator σ κ) :
    Accumulator σ κ :=
  let report := a.report.recordFailedFlush t
  { a with report }.tell (.flushFailed t entries (report.failedFlushes.get t) e)

def CommitDue (t : Table) (a : Accumulator σ κ) : Prop :=
  a.thresholds.commitFor t ≤ a.counters.get t

instance (t : Table) (a : Accumulator σ κ) : Decidable (a.CommitDue t) :=
  inferInstanceAs (Decidable (_ ≤ _))

theorem flush_empty {t : Table} {a : Accumulator σ κ} (ht : a.buffered t = 0) :
    a.flush t = (.empty, a) := by
  unfold flush
  exact if_pos ht

theorem flush_missed {t : Table} {a b : Accumulator σ κ} {e : SessionError}
    (ht : a.buffered t ≠ 0) (h : a.write t = (.error e, b)) :
    a.flush t = (.failed, b.missed t (a.buffered t) e) := by
  unfold flush
  rw [if_neg ht, h]
  rfl

theorem flush_landed {t : Table} {a b : Accumulator σ κ} {rows : Nat}
    (ht : a.buffered t ≠ 0) (h : a.write t = (.ok rows, b)) :
    a.flush t = if (b.landed t (a.buffered t) rows).CommitDue t then
      (b.landed t (a.buffered t) rows).commit t rows
    else (.flushed rows, b.landed t (a.buffered t) rows) := by
  unfold flush
  rw [if_neg ht, h]
  rfl

theorem thresholds_begin (t : Table) (a : Accumulator σ κ) :
    (a.begin t).2.thresholds = a.thresholds := by
  unfold begin
  split <;> rfl

theorem thresholds_write (t : Table) (a : Accumulator σ κ) :
    (a.write t).2.thresholds = a.thresholds := by
  have h := thresholds_begin t a
  unfold write
  generalize a.begin t = x at h ⊢
  obtain ⟨o, b⟩ := x
  cases o <;> exact h

theorem thresholds_commit (t : Table) (rows : Nat) (a : Accumulator σ κ) :
    (a.commit t rows).2.thresholds = a.thresholds := by
  unfold commit
  split <;> rfl

theorem thresholds_flush (t : Table) (a : Accumulator σ κ) :
    (a.flush t).2.thresholds = a.thresholds := by
  by_cases ht : a.buffered t = 0
  · rw [flush_empty ht]
  have h := thresholds_write t a
  rcases hw : a.write t with ⟨e | rows, b⟩ <;> rw [hw] at h
  · rw [flush_missed ht hw]
    exact h
  · rw [flush_landed ht hw]
    split
    · exact (thresholds_commit t rows _).trans h
    · exact h

def flushes (ts : List Table) (a : Accumulator σ κ) : Accumulator σ κ :=
  ts.foldl (fun a t => (a.flush t).2) a

@[simp] theorem flushes_nil (a : Accumulator σ κ) : a.flushes [] = a := rfl

@[simp] theorem flushes_cons (t : Table) (ts : List Table) (a : Accumulator σ κ) :
    a.flushes (t :: ts) = (a.flush t).2.flushes ts := rfl

theorem flushes_append (ts us : List Table) (a : Accumulator σ κ) :
    a.flushes (ts ++ us) = (a.flushes ts).flushes us := List.foldl_append

theorem flushAll_eq (a : Accumulator σ κ) : a.flushAll = a.flushes Table.all := rfl

/-- Whether a full buffer is flushed is decided by thresholds and buffers alone. -/
def due (t : Table) (a : Accumulator σ κ) : List Table :=
  if a.thresholds.row ≤ a.buffered t then [t] else []

theorem flushIfFull_eq (t : Table) (a : Accumulator σ κ) :
    a.flushIfFull t = a.flushes (a.due t) := by
  unfold flushIfFull due
  split <;> rfl

/-- The tables of the given ones that are full when it is their turn to be flushed. -/
def dueAmong : List Table → Accumulator σ κ → List Table
  | [], _ => []
  | t :: ts, a => a.due t ++ (a.flushIfFull t).dueAmong ts

theorem foldl_flushIfFull (ts : List Table) (a : Accumulator σ κ) :
    ts.foldl (fun a t => a.flushIfFull t) a = a.flushes (a.dueAmong ts) := by
  induction ts generalizing a with
  | nil => rfl
  | cons t ts ih => rw [List.foldl_cons, ih, dueAmong, flushes_append, ← flushIfFull_eq]

def dueWithUser (u : User) (a : Accumulator σ κ) : List Table :=
  if a.buffers.users.contains u.id then [] else (a.author u).due .users

theorem addUser_eq (u : User) (a : Accumulator σ κ) :
    a.addUser u = (a.author u).flushes (a.dueWithUser u) := by
  unfold addUser dueWithUser
  split
  · rename_i h
    simp [author, Buffers.addUser, h]
  · exact flushIfFull_eq .users _

/-- The accumulator with an element and its author in their buffers. -/
def staged (e : Entity) (a : Accumulator σ κ) : Accumulator σ κ := (a.addUser e.user).element e

theorem add_eq_foldl (e : Entity) (a : Accumulator σ κ) :
    a.add e = e.tables.foldl (fun a t => a.flushIfFull t) (a.staged e) := by
  cases e <;> rfl

theorem add_eq (e : Entity) (a : Accumulator σ κ) :
    a.add e = (a.staged e).flushes ((a.staged e).dueAmong e.tables) := by
  rw [add_eq_foldl, foldl_flushIfFull]

/-- What the moves keep, of an accumulator to which these authors and elements were added. -/
structure Invariant (P : List User → List Entity → Accumulator σ κ → Prop) : Prop where
  author {us : List User} {es : List Entity} {a : Accumulator σ κ} (u : User) :
    P us es a → P (us ++ [u]) es (a.author u)
  element {us : List User} {es : List Entity} {a : Accumulator σ κ} (e : Entity) :
    P us es a → P us (es ++ [e]) (a.element e)
  flush {us : List User} {es : List Entity} {a : Accumulator σ κ} (t : Table) :
    P us es a → P us es (a.flush t).2

namespace Invariant

variable {P : List User → List Entity → Accumulator σ κ → Prop} (I : Invariant P)
include I

theorem flushes {us : List User} {es : List Entity} {a : Accumulator σ κ} (ts : List Table)
    (h : P us es a) : P us es (a.flushes ts) := by
  induction ts generalizing a with
  | nil => exact h
  | cons t ts ih => exact ih (I.flush t h)

theorem add {us : List User} {es : List Entity} {a : Accumulator σ κ} (e : Entity)
    (h : P us es a) : P (us ++ [e.user]) (es ++ [e]) (a.add e) := by
  rw [add_eq, staged, addUser_eq]
  exact I.flushes _ (I.element e (I.flushes _ (I.author e.user h)))

end Invariant

/-- A call made to an accumulator from outside. -/
inductive Call
  | add (e : Entity)
  | flush (t : Table)
  deriving DecidableEq

def Call.entity? : Call → Option Entity
  | .add e => some e
  | .flush _ => none

def perform (a : Accumulator σ κ) : Call → Accumulator σ κ
  | .add e => a.add e
  | .flush t => (a.flush t).2

def performAll (calls : List Call) (a : Accumulator σ κ) : Accumulator σ κ :=
  calls.foldl perform a

theorem performAll_flushAll (calls : List Call) (a : Accumulator σ κ) :
    performAll (calls ++ Table.all.map .flush) a = (performAll calls a).flushAll := by
  rw [performAll, List.foldl_append]
  rfl

theorem Invariant.performAll {P : List User → List Entity → Accumulator σ κ → Prop}
    (I : Invariant P) {us : List User} {es : List Entity} {a : Accumulator σ κ}
    (calls : List Call) (h : P us es a) :
    P (us ++ (calls.filterMap Call.entity?).map Entity.user)
      (es ++ calls.filterMap Call.entity?) (a.performAll calls) := by
  induction calls generalizing us es a with
  | nil => simpa [Accumulator.performAll] using h
  | cons c calls ih =>
    cases c with
    | add e =>
      have h' := ih (I.add e h)
      simpa [List.filterMap_cons, Call.entity?, Accumulator.performAll, perform] using h'
    | flush t =>
      have h' := ih (I.flush t h)
      simpa [List.filterMap_cons, Call.entity?, Accumulator.performAll, perform] using h'

theorem finish_ok {a : Accumulator σ κ} {s : Session σ κ}
    (h : a.flushAll.session.endBatch true = (.ok (), s)) :
    a.finish = (.ok a.flushAll.report,
      { a.flushAll with session := s }.tell (.finished a.flushAll.report)) := by
  unfold finish
  generalize a.flushAll = b at h ⊢
  simp only [h]
  rfl

/-- Finishing when the last transaction fails: its table is charged with the failure. -/
theorem finish_error {a : Accumulator σ κ} {s : Session σ κ} {e : SessionError}
    (h : a.flushAll.session.endBatch true = (.error e, s)) :
    ∃ t, a.flushAll.session.openTable? = some t ∧
      a.finish = (.error e, ({ a.flushAll with
        session := s, report := a.flushAll.report.recordFailedCommit t }.tell
          (.finalCommitFailed t e)).tell (.finished (a.flushAll.report.recordFailedCommit t))) := by
  unfold finish
  generalize a.flushAll = b at h ⊢
  cases hl : b.session.live with
  | none =>
    rw [Session.endBatch_idle hl] at h
    cases h
  | some l =>
    refine ⟨l.table, by simp [Session.openTable?, hl], ?_⟩
    simp only [h, Session.openTable?, hl]
    rfl

/-- The accumulator of a load when the stream has ended, just before it finishes. -/
def drained (options : LoadOptions) (store : σ) (entities : List Entity) : Accumulator σ κ :=
  (entities.foldl (dispatch options.filter)
    (.new store options.thresholds options.counterReset)).tell .drained

/-- A property that moves, notices and counts of elements keep holds when a stream has ended, of
the elements that the filter let through. -/
theorem Invariant.drained {P : List User → List Entity → Accumulator σ κ → Prop}
    (I : Invariant P) {options : LoadOptions} {store : σ}
    (hreport : ∀ {us es a} (r : Report), r.written = a.report.written →
      r.failedFlushes = a.report.failedFlushes → r.failedCommits = a.report.failedCommits →
      P us es a → P us es { a with report := r })
    (htell : ∀ {us es a} (n : Notice), P us es a → P us es (a.tell n))
    (h : P [] [] (.new store options.thresholds options.counterReset)) (entities : List Entity) :
    P ((options.filter.admitted entities).map Entity.user) (options.filter.admitted entities)
      (drained options store entities) := by
  refine htell .drained ?_
  generalize Accumulator.new store options.thresholds options.counterReset = a at h ⊢
  have hall : ∀ us es a, P us es a → P (us ++ (options.filter.admitted entities).map Entity.user)
      (es ++ options.filter.admitted entities) (entities.foldl (dispatch options.filter) a) := by
    intro us es a h
    induction entities generalizing us es a with
    | nil => simpa [ElementFilter.admitted] using h
    | cons e rest ih =>
      by_cases he : options.filter.includes e.kind
      · have hd := I.add e (hreport (a.report.recordProcessed e.kind) rfl rfl rfl h)
        have hr := ih _ _ _ hd
        simpa [ElementFilter.admitted, dispatch, he] using hr
      · have hr := ih _ _ _ (hreport (a.report.recordSkipped e.kind) rfl rfl rfl h)
        simpa [ElementFilter.admitted, dispatch, he] using hr
  simpa using hall [] [] a h

end Accumulator

theorem ingest_eq {σ κ : Type} [Store σ κ] (options : LoadOptions) (store : σ)
    (entities : List Entity) : ingest options store entities =
      ((Accumulator.drained options store entities).finish.1,
        (Accumulator.drained options store entities).finish.2.session) := by
  unfold ingest Accumulator.drained
  dsimp only

def smallStream : List Entity :=
  [.node ⟨1, { user := ⟨7, "ann"⟩ }, ⟨⟨0⟩, ⟨0⟩⟩, .empty⟩,
    .way ⟨2, { user := ⟨8, ""⟩ }, .empty, [1, 4, 1]⟩,
    .relation ⟨3, { user := ⟨7, "ann"⟩ }, .empty, [⟨2, .way, "outer"⟩, ⟨1, .node, ""⟩]⟩,
    .node ⟨4, { user := ⟨9, "joe"⟩ }, ⟨⟨0⟩, ⟨0⟩⟩, .empty⟩]

/-- Every entry is written at once, and most writes bring a commit. -/
def tightOptions : LoadOptions := { thresholds := ⟨1, 2, 1⟩ }

end MapLoader
