import MapLoader.Session.Batch
import MapLoader.Store.Basic

/-! A write session: at most one connection, open for one table, with one transaction. Turning
to another table commits what was written so far and opens a connection for the new one. -/

namespace MapLoader

structure Live (κ : Type) where
  table : Table
  connection : κ
  deriving DecidableEq, Inhabited, Repr

structure Session (σ κ : Type) where
  store : σ
  live : Option (Live κ) := none
  log : Array Notice := #[]
  deriving DecidableEq, Inhabited, Repr

namespace Session

variable {σ κ : Type}

def openTable? (s : Session σ κ) : Option Table := s.live.map Live.table

/-- Whether a transaction may hold rows that are not committed. -/
def hasPendingWrite (s : Session σ κ) : Bool := s.live.isSome

def summary (storeName : String) (s : Session σ κ) : String :=
  let current := (s.openTable?.map fun t => "Some(" ++ t.itemName ++ ")").getD "None"
  "WriteSession \x7b sink: " ++ storeName ++ ", open_kind: " ++ current ++ " \x7d"

def tell (s : Session σ κ) (n : Notice) : Session σ κ := { s with log := s.log.push n }

variable [Store σ κ]

/-- Opens a connection for a table. One that cannot be prepared is closed again. -/
def openFor (t : Table) (s : Session σ κ) : Except StoreError Unit × Session σ κ :=
  match Store.connect s.store with
  | (.error e, store) => (.error e, { s with store })
  | (.ok c, store) =>
    match Store.prepare t c store with
    | (.ok _, c, store) => (.ok (), { s with store, live := some ⟨t, c⟩ }.tell (.opened t))
    | (.error e, c, store) =>
      match Store.close c store with
      | (.ok _, store) => (.error e, { s with store })
      | (.error e', store) => (.error e, { s with store }.tell (.closeUnpreparedFailed e'))

/-- Commits; rows still gathered are executed first. -/
def commitPending (c : κ) (store : σ) : Except StoreError Unit × κ × σ :=
  if 0 < Store.pending σ c then
    match Store.execute c store with
    | (.ok _, c, store) => Store.commit c store
    | (.error e, c, store) => (.error e, c, store)
  else Store.commit c store

/-- Rolls back after a commit that failed. -/
def rollbackFailed (t : Table) (e : StoreError) (c : κ) (s : Session σ κ) : κ × Session σ κ :=
  let s := s.tell (.commitFailed t e)
  match Store.rollback c s.store with
  | (.ok _, c, store) => (c, { s with store })
  | (.error e', c, store) => (c, { s with store }.tell (.rollbackFailed e'))

/-- Closes the connection that a transaction leaves behind. The outcome of the transaction
comes before that of closing. -/
def release (t : Table) (outcome : Except StoreError Unit) (c : κ) (s : Session σ κ) :
    Except StoreError Unit × Session σ κ :=
  match outcome, Store.close c s.store with
  | .ok _, (closed, store) => (closed, { s with store })
  | .error e, (.ok _, store) => (.error e, { s with store })
  | .error e, (.error e', store) => (.error e, { s with store }.tell (.closeFailed t e'))

/-- Ends the open transaction, if there is one: commits it or rolls it back, and closes its
connection whatever happens. -/
def endTransaction (commit : Bool) (s : Session σ κ) : Except StoreError Unit × Session σ κ :=
  match s.live with
  | none => (.ok (), s)
  | some ⟨t, c⟩ =>
    let s := { s with live := none }
    if commit then
      match commitPending c s.store with
      | (.ok _, c, store) => release t (.ok ()) c { s with store }
      | (.error e, c, store) =>
        let (c, s) := rollbackFailed t e c { s with store }
        release t (.error e) c s
    else
      let (outcome, c, store) := Store.rollback c s.store
      release t outcome c { s with store }

structure BatchStart where
  previousCommitted : Bool := false
  deriving DecidableEq, Inhabited, Repr

def openFresh (t : Table) (s : Session σ κ) : Except SessionError BatchStart × Session σ κ :=
  let (outcome, s) := s.openFor t
  ((outcome.mapError .connection).map fun _ => {}, s)

/-- Leaves the open transaction for one on the given table, even if it is the same table. -/
def switchTo (t : Table) (s : Session σ κ) : Except SessionError BatchStart × Session σ κ :=
  match s.openTable? with
  | none => s.openFresh t
  | some previous =>
    match s.endTransaction true with
    | (.error e, s) => (.error (.switchCommit previous t e), s)
    | (.ok _, s) =>
      match (s.tell (.switched previous t)).openFor t with
      | (.error e, s) => (.error (.switchOpen previous t e), s)
      | (.ok _, s) => (.ok ⟨true⟩, s)

def beginBatch (t : Table) (s : Session σ κ) : Except SessionError BatchStart × Session σ κ :=
  match s.openTable? with
  | none => s.openFresh t
  | some previous => if previous = t then (.ok {}, s) else s.switchTo t

def endBatch (commit : Bool) (s : Session σ κ) : Except SessionError Unit × Session σ κ :=
  let (outcome, s) := s.endTransaction commit
  (outcome.mapError .connection, s)

/-- Ending a batch when nothing is open makes no call. -/
theorem endBatch_idle {s : Session σ κ} (h : s.live = none) (commit : Bool) :
    s.endBatch commit = (.ok (), s) := by
  obtain ⟨store, live, log⟩ := s
  cases h
  rfl

/-- Binds rows one by one and stops at the first that fails. What there is to tell about a row
is told just before it is bound. -/
def bindAll : List Binding → κ → σ → Array Notice → Except StoreError Unit × κ × σ × Array Notice
  | [], c, store, log => (.ok (), c, store, log)
  | b :: rest, c, store, log =>
    let log := b.notice.elim log log.push
    match Store.addRow b.row c store with
    | (.ok _, c, store) => bindAll rest c store log
    | (.error e, c, store) => (.error e, c, store, log)

/-- Writes a batch in the open transaction and tells the number of rows. A batch that fails
leaves nothing behind, and the session stays open. -/
def insert (b : Batch) (s : Session σ κ) : Except SessionError Nat × Session σ κ :=
  match s.live with
  | none => (.error (.illegalState b.table none), s)
  | some ⟨t, c⟩ =>
    if t = b.table then
      match bindAll b.bindings c s.store s.log with
      | (.error e, c, store, log) =>
        (.error (.batch t e), ⟨store, some ⟨t, Store.clearBatch σ c⟩, log⟩)
      | (.ok _, c, store, log) =>
        let (outcome, c, store) := Store.execute c store
        (outcome.mapError (.batch t), ⟨store, some ⟨t, c⟩, log⟩)
    else (.error (.illegalState b.table (some t)), s)

/-- Gives up the session. What is not committed is rolled back. -/
def abandon (s : Session σ κ) : Session σ κ :=
  match s.openTable? with
  | none => s
  | some t =>
    match (s.tell (.discarding t)).endBatch false with
    | (.ok _, s) => s
    | (.error e, s) => s.tell (.discardFailed t e)

end Session

end MapLoader
