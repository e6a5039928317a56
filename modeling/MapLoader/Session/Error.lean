import MapLoader.Store.Error

/-! Errors of a write session. They say what became of the transaction that was open. -/

namespace MapLoader

inductive SessionError
  | connection (source : StoreError)
  /-- Rows were offered for a table other than the one the session is open for. -/
  | illegalState (requested : Table) (current : Option Table)
  /-- The transaction that was to be left behind could not be ended without an error. -/
  | switchCommit (previous next : Table) (source : StoreError)
  /-- The rows left behind are committed, but no transaction is open now. -/
  | switchOpen (committed next : Table) (source : StoreError)
  | batch (table : Table) (source : StoreError)
  deriving DecidableEq, Inhabited, Repr

namespace SessionError

def message : SessionError → String
  | connection _ => "write session lost its sink connection"
  | illegalState requested current =>
    s!"cannot insert {requested.label} while the session is open for " ++
      (current.map Table.label).getD "nothing"
  | switchCommit previous next _ =>
    s!"failed to commit {previous.label} batch before switching to {next.label}"
  | switchOpen committed next _ =>
    s!"committed {committed.label} batch but failed to open a session for {next.label}"
  | batch table _ => s!"failed to execute {table.label} batch"

def source? : SessionError → Option StoreError
  | illegalState _ _ => none
  | connection source | switchCommit _ _ source | switchOpen _ _ source | batch _ source =>
    some source

def chain (e : SessionError) : List String :=
  match e.source? with
  | none => []
  | some source => source.message :: source.chain

end SessionError

end MapLoader
