import MapLoader.Load.Buffers
import MapLoader.Load.Counters
import MapLoader.Session.Basic

/-! Gathers elements into one buffer for each table, writes a buffer when it is full and commits
when enough was written. A buffer that could not be written stays as it is and is tried again;
the report counts every failure. -/

namespace MapLoader

structure Accumulator (σ κ : Type) where
  session : Session σ κ
  thresholds : Thresholds
  counters : Counters
  buffers : Buffers := {}
  report : Report := {}

inductive FlushOutcome
  | empty
  | flushed (rows : Nat)
  | committed (rows : Nat)
  /-- So many rows were written, and the commit that was due then failed. -/
  | commitFailed (rows : Nat)
  /-- Nothing was written, and the buffer stays as it was. -/
  | failed
  deriving DecidableEq, Inhabited, Repr

namespace Accumulator

variable {σ κ : Type}

def new (store : σ) (thresholds : Thresholds) (policy : CounterReset) : Accumulator σ κ :=
  { session := { store }, thresholds, counters := .new policy }

def tell (a : Accumulator σ κ) (n : Notice) : Accumulator σ κ :=
  { a with session := a.session.tell n }

def buffered (a : Accumulator σ κ) (t : Table) : Nat := a.buffers.size t

def hasPendingWrite (a : Accumulator σ κ) : Bool := a.session.hasPendingWrite

variable [Store σ κ]

/-- Opens the session for a table. If the transaction before it cannot be committed, its table
is charged with the failure and the session is opened afresh. -/
def begin (t : Table) (a : Accumulator σ κ) : Except SessionError Unit × Accumulator σ κ :=
  match a.session.beginBatch t with
  | (.ok start, session) =>
    let counters := if start.previousCommitted then a.counters.reset .switch else a.counters
    (.ok (), { a with session, counters })
  | (.error (.switchCommit previous _ source), session) =>
    let report := a.report.recordFailedCommit previous
    let failures := report.failedCommits.get previous
    let session := session.tell (.switchCommitFailed previous t failures source)
    let (outcome, session) := session.beginBatch t
    (outcome.map fun _ => (), { a with session, report, counters := a.counters.reset .switch })
  | (.error e@(.switchOpen _ _ _), session) =>
    (.error e, { a with session, counters := a.counters.reset .switch })
  | (.error e, session) => (.error e, { a with session })

def write (t : Table) (a : Accumulator σ κ) : Except SessionError Nat × Accumulator σ κ :=
  match a.begin t with
  | (.error e, a) => (.error e, a)
  | (.ok _, a) =>
    let (outcome, session) := a.session.insert (a.buffers.batch t)
    (outcome, { a with session })

/-- Commits because the counter of a table has reached its threshold. -/
def commit (t : Table) (rows : Nat) (a : Accumulator σ κ) : FlushOutcome × Accumulator σ κ :=
  match a.session.endBatch true with
  | (.ok _, session) =>
    let a := { a with session := session.tell (.committed t (a.counters.get t)) }
    (.committed rows, { a with counters := a.counters.reset (.threshold t) })
  | (.error e, session) =>
    let a := { a with
      session := session.tell (.thresholdCommitFailed t e)
      report := a.report.recordFailedCommit t }
    (.commitFailed rows, { a with counters := a.counters.reset (.threshold t) })

/-- Writes the buffer of a table, and commits if that makes a commit due. -/
def flush (t : Table) (a : Accumulator σ κ) : FlushOutcome × Accumulator σ κ :=
  let size := a.buffered t
  if size = 0 then (.empty, a)
  else
    match a.write t with
    | (.ok rows, a) =>
      let a := { a with
        buffers := a.buffers.clear t
        report := a.report.recordWritten t rows
        counters := a.counters.add t size
        session := a.session.tell (.flushed t rows) }
      if a.thresholds.commitFor t ≤ a.counters.get t then a.commit t rows else (.flushed rows, a)
    | (.error e, a) =>
      let report := a.report.recordFailedFlush t
      let failures := report.failedFlushes.get t
      (.failed, { a with report }.tell (.flushFailed t size failures e))

def flushIfFull (t : Table) (a : Accumulator σ κ) : Accumulator σ κ :=
  if a.thresholds.row ≤ a.buffered t then (a.flush t).2 else a

/-- A user who waits already is left alone. -/
def addUser (u : User) (a : Accumulator σ κ) : Accumulator σ κ :=
  if a.buffers.users.contains u.id then a
  else { a with buffers := a.buffers.addUser u }.flushIfFull .users

def addNode (n : Node) (a : Accumulator σ κ) : Accumulator σ κ :=
  let a := a.addUser n.metadata.user
  { a with buffers := a.buffers.addNode n }.flushIfFull .nodes

def addWay (w : Way) (a : Accumulator σ κ) : Accumulator σ κ :=
  let a := a.addUser w.metadata.user
  ({ a with buffers := a.buffers.addWay w }.flushIfFull .ways).flushIfFull .wayNodes

def addRelation (r : Relation) (a : Accumulator σ κ) : Accumulator σ κ :=
  let a := a.addUser r.metadata.user
  let a := { a with buffers := a.buffers.addRelation r }
  (a.flushIfFull .relations).flushIfFull .relationMembers

def add (e : Entity) (a : Accumulator σ κ) : Accumulator σ κ :=
  match e with
  | .node n => a.addNode n
  | .way w => a.addWay w
  | .relation r => a.addRelation r

def flushAll (a : Accumulator σ κ) : Accumulator σ κ :=
  Table.all.foldl (fun a t => (a.flush t).2) a

def finish (a : Accumulator σ κ) : Except SessionError Report × Accumulator σ κ :=
  let a := a.flushAll
  let current := a.session.openTable?
  let (outcome, session) := a.session.endBatch true
  let a := { a with session }
  let a := match outcome, current with
    | .error e, some t =>
      { a with report := a.report.recordFailedCommit t }.tell (.finalCommitFailed t e)
    | _, _ => a
  let a := a.tell (.finished a.report)
  (outcome.map fun _ => a.report, a)

end Accumulator

end MapLoader
