import MapLoader.Database.Draft
import MapLoader.Database.Schema
import MapLoader.Store.Basic

/-! A database as a store. The first batch of a connection begins a transaction; each batch is
executed as a whole inside it, behind a savepoint of its own, and other readers see none of it
before the commit. -/

namespace MapLoader

structure Database.Connection where
  statement : Option Table := none
  pending : Array Row := #[]
  transaction : Option Draft := none
  deriving DecidableEq, Inhabited, Repr

namespace Database

def Connection.view (c : Connection) (d : Database) : Database :=
  c.transaction.elim d Draft.current

@[simp] theorem Connection.view_none (s : Option Table) (rows : Array Row) (d : Database) :
    Connection.view ⟨s, rows, none⟩ d = d := rfl

@[simp] theorem Connection.view_some (s : Option Table) (rows : Array Row) (w : Draft)
    (d : Database) : Connection.view ⟨s, rows, some w⟩ d = w.current := rfl

def Connection.draft (c : Connection) (d : Database) : Draft :=
  c.transaction.getD { current := d }

@[simp] theorem Connection.current_draft (c : Connection) (d : Database) :
    (c.draft d).current = c.view d := by
  unfold draft view
  cases c.transaction <;> rfl

/-- A failed prepare leaves the statement and the gathered rows as they were. -/
def prepare (t : Table) (c : Connection) (d : Database) :
    Except StoreError Unit × Connection × Database :=
  match (c.view d).target t with
  | .error e => (.error ⟨.prepare, .database e⟩, c, d)
  | .ok _ => (.ok (), { c with statement := some t, pending := #[] }, d)

def addRow (r : Row) (c : Connection) (d : Database) :
    Except StoreError Unit × Connection × Database :=
  match c.statement with
  | none => (.error ⟨.bind, .unprepared "insert"⟩, c, d)
  | some t =>
    if r.length = t.arity then (.ok (), { c with pending := c.pending.push r }, d)
    else (.error ⟨.bind, .arity t r.length⟩, c, d)

/-- The gathered rows are gone whether or not executing them succeeds. A batch that fails is
taken back to the savepoint before it, and the transaction stays open. -/
def execute (c : Connection) (d : Database) : Except StoreError Nat × Connection × Database :=
  let rows := c.pending.toList
  let c := { c with pending := #[] }
  match c.statement with
  | none => (.error ⟨.execute, .unprepared "insert"⟩, c, d)
  | some t =>
    let w := (c.draft d).save
    match w.insertRows t rows with
    | (.ok _, w) => (.ok rows.length, { c with transaction := some w.release }, d)
    | (.error e, w) =>
      (.error ⟨.execute, .database e⟩, { c with transaction := some w.revert.release }, d)

/-- Without a transaction there is nothing to commit. -/
def commit (c : Connection) (d : Database) : Except StoreError Unit × Connection × Database :=
  (.ok (), { c with transaction := none }, c.view d)

def rollback (c : Connection) (d : Database) : Except StoreError Unit × Connection × Database :=
  (.ok (), { c with transaction := none }, d)

/-- A transaction that is still open is lost. -/
def close (_ : Connection) (d : Database) : Except StoreError Unit × Database := (.ok (), d)

instance : Store Database Connection where
  connect d := (.ok {}, d)
  prepare
  addRow
  pending c := c.pending.size
  clearBatch c := { c with pending := #[] }
  execute
  commit
  rollback
  close

end Database

end MapLoader
