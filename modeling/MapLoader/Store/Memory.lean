import MapLoader.Store.Basic

/-! A store in memory that keeps a journal of what was done to it. Opening, committing and
executing on a chosen table can be made to fail. -/

namespace MapLoader

inductive Memory.Event
  | opened
  | prepared (table : Table)
  | executed (table : Table) (rows : Array Row)
  | committed
  | rolledBack
  | closed
  deriving DecidableEq, Inhabited, Repr

structure Memory where
  events : Array Memory.Event := #[]
  committed : PerTable (Array Row) := .const #[]
  openConnections : Nat := 0
  maxOpenConnections : Nat := 0
  failsOpen : Bool := false
  failsCommit : Bool := false
  failsExecute : List Table := []
  deriving DecidableEq, Inhabited, Repr

structure Memory.Connection where
  statement : Option Table := none
  pending : Array Row := #[]
  /-- Executed rows of the open transaction, each with its table. -/
  uncommitted : Array (Table × Row) := #[]
  deriving DecidableEq, Inhabited, Repr

namespace Memory

def note (m : Memory) (e : Event) : Memory := { m with events := m.events.push e }

def connect (m : Memory) : Except StoreError Connection × Memory :=
  if m.failsOpen then (.error (.injected .connect), m)
  else
    let m := m.note .opened
    let count := m.openConnections + 1
    (.ok {}, { m with
      openConnections := count
      maxOpenConnections := max m.maxOpenConnections count })

/-- Preparing drops the rows gathered for the statement before. -/
def prepare (t : Table) (c : Connection) (m : Memory) :
    Except StoreError Unit × Connection × Memory :=
  (.ok (), { c with statement := some t, pending := #[] }, m.note (.prepared t))

def addRow (r : Row) (c : Connection) (m : Memory) :
    Except StoreError Unit × Connection × Memory :=
  match c.statement with
  | none => (.error ⟨.bind, .unprepared "statement"⟩, c, m)
  | some t =>
    if r.length = t.arity then (.ok (), { c with pending := c.pending.push r }, m)
    else (.error ⟨.bind, .arity t r.length⟩, c, m)

/-- The gathered rows are gone whether or not executing them succeeds. -/
def execute (c : Connection) (m : Memory) : Except StoreError Nat × Connection × Memory :=
  match c.statement with
  | none => (.error ⟨.execute, .unprepared "statement"⟩, c, m)
  | some t =>
    let c' := { c with pending := #[] }
    if t ∈ m.failsExecute then (.error (.injected .execute), c', m)
    else
      (.ok c.pending.size,
        { c' with uncommitted := c.uncommitted ++ c.pending.map fun r => (t, r) },
        m.note (.executed t c.pending))

def insertRow (tables : PerTable (Array Row)) (r : Table × Row) : PerTable (Array Row) :=
  tables.modify r.1 (·.push r.2)

def commit (c : Connection) (m : Memory) : Except StoreError Unit × Connection × Memory :=
  if m.failsCommit then (.error (.injected .commit), c, m)
  else
    let m := m.note .committed
    (.ok (), { c with uncommitted := #[] },
      { m with committed := c.uncommitted.foldl insertRow m.committed })

def rollback (c : Connection) (m : Memory) : Except StoreError Unit × Connection × Memory :=
  (.ok (), { c with uncommitted := #[] }, m.note .rolledBack)

def close (_ : Connection) (m : Memory) : Except StoreError Unit × Memory :=
  let m := m.note .closed
  (.ok (), { m with openConnections := m.openConnections - 1 })

instance : Store Memory Connection where
  connect
  prepare
  addRow
  pending c := c.pending.size
  clearBatch c := { c with pending := #[] }
  execute
  commit
  rollback
  close

inductive Switch
  | failOpen (on : Bool)
  | failCommit (on : Bool)
  | failExecute (table : Table)
  | clearFailures
  deriving DecidableEq, Repr

def turn (m : Memory) : Switch → Memory
  | .failOpen on => { m with failsOpen := on }
  | .failCommit on => { m with failsCommit := on }
  | .failExecute t => { m with failsExecute := t :: m.failsExecute }
  | .clearFailures => { m with failsOpen := false, failsCommit := false, failsExecute := [] }

def executions (m : Memory) (t : Table) : List Nat :=
  m.events.toList.filterMap fun
    | .executed s rows => if s = t then some rows.size else none
    | _ => none

def commits (m : Memory) : Nat := m.events.count .committed

def rollbacks (m : Memory) : Nat := m.events.count .rolledBack

end Memory

end MapLoader
