import MapLoader.Session.Error
import MapLoader.Report
import MapLoader.Extract.Malformed

/-! What a load tells about itself while it runs. -/

namespace MapLoader

inductive Level
  | debug | info | warn | error
  deriving DecidableEq, Inhabited, Repr

def Level.name : Level → String
  | debug => "DEBUG"
  | info => "INFO"
  | warn => "WARN"
  | error => "ERROR"

inductive Notice
  | opened (table : Table)
  | switched (previous next : Table)
  | commitFailed (table : Table) (error : StoreError)
  | rollbackFailed (error : StoreError)
  | closeFailed (table : Table) (error : StoreError)
  | closeUnpreparedFailed (error : StoreError)
  | discarding (table : Table)
  | discardFailed (table : Table) (error : SessionError)
  | unnamedUser (id : Int)
  | flushed (table : Table) (rows : Nat)
  | flushFailed (table : Table) (size failures : Nat) (error : SessionError)
  | committed (table : Table) (count : Nat)
  | thresholdCommitFailed (table : Table) (error : SessionError)
  | switchCommitFailed (previous next : Table) (failures : Nat) (error : StoreError)
  | finalCommitFailed (table : Table) (error : SessionError)
  | drained
  | finished (report : Report)
  | loading (path : String)
  | malformedElement (reason : Malformed)
  | droppedElements (count : Nat)
  | indexing (path : String)
  | indexed (path : String)
  | notIndexing (path : String)
  deriving DecidableEq, Repr

namespace Notice

def level : Notice → Level
  | opened _ | switched _ _ | flushed _ _ => .debug
  | committed _ _ | drained | finished _ | loading _ | indexing _ | indexed _ => .info
  | commitFailed _ _ | rollbackFailed _ | closeFailed _ _ | closeUnpreparedFailed _
  | discarding _ | discardFailed _ _ | unnamedUser _ | malformedElement _ | droppedElements _
  | notIndexing _ => .warn
  | flushFailed _ _ _ _ | thresholdCommitFailed _ _ | switchCommitFailed _ _ _ _
  | finalCommitFailed _ _ => .error

/-- The wording, for a load that took the time that `elapsed` says. -/
def text (elapsed : String) : Notice → String
  | opened t => s!"Opened write session for {t.label}"
  | switched previous next =>
    s!"Committed {previous.label} batch to switch the session to {next.label}"
  | commitFailed t e => s!"Commit of {t.label} session failed ({e.message}); rolling back"
  | rollbackFailed e => s!"Rollback after failed commit also failed: {e.message}"
  | closeFailed t e => s!"Closing {t.label} session after failure also failed: {e.message}"
  | closeUnpreparedFailed e => s!"Closing connection after failed prepare also failed: {e.message}"
  | discarding t => s!"Discarding uncommitted {t.label} session"
  | discardFailed t e => s!"Rolling back {t.label} session failed: {e.message}"
  | unnamedUser id => s!"User {id} has no name; storing NO_NAME_FOUND"
  | flushed t rows => s!"Flushed {rows} {t.label}"
  | flushFailed t size failures e =>
    s!"Failed to flush {size} buffered {t.label} (failure {failures}): {e.message}"
  | committed t count => s!"Committed after {count} {t.label}"
  | thresholdCommitFailed t e => s!"Commit after flushing {t.label} failed: {e.message}"
  | switchCommitFailed previous next failures e =>
    s!"Commit of {previous.label} before switching to {next.label} failed " ++
      s!"(failure {failures}): {e.message}"
  | finalCommitFailed t e => s!"Final commit of {t.label} failed: {e.message}"
  | drained => "Entity stream drained; flushing remaining buffers"
  | finished report => report.text elapsed
  | loading path => s!"Loading {path}"
  | malformedElement reason => s!"Dropping malformed element: {reason.text}"
  | droppedElements count => s!"Dropped {count} malformed elements"
  | indexing path => s!"Creating indexes in {path}"
  | indexed path => s!"Created indexes in {path}"
  | notIndexing path => s!"Skipping index creation for {path}"

end Notice

end MapLoader
