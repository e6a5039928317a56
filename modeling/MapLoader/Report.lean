import MapLoader.Element
import MapLoader.Table

/-! What a load did, counted by kind of element and by table. -/

namespace MapLoader

structure Report where
  processed : PerElement Nat := .const 0
  /-- Elements that the filter kept out. -/
  skipped : PerElement Nat := .const 0
  /-- Rows executed, whether or not their transaction was committed later. -/
  written : PerTable Nat := .const 0
  failedFlushes : PerTable Nat := .const 0
  failedCommits : PerTable Nat := .const 0
  /-- Elements that could not be made out. -/
  malformed : Nat := 0
  deriving DecidableEq, Inhabited, Repr

namespace Report

def failures (r : Report) : Nat := r.failedFlushes.total + r.failedCommits.total

/-- No flush and no commit failed. -/
def isComplete (r : Report) : Bool := r.failedFlushes.total == 0 && r.failedCommits.total == 0

def recordProcessed (r : Report) (k : ElementKind) : Report :=
  { r with processed := r.processed.set k (r.processed.get k + 1) }

def recordSkipped (r : Report) (k : ElementKind) : Report :=
  { r with skipped := r.skipped.set k (r.skipped.get k + 1) }

def recordWritten (r : Report) (t : Table) (rows : Nat) : Report :=
  { r with written := r.written.modify t (· + rows) }

def recordFailedFlush (r : Report) (t : Table) : Report :=
  { r with failedFlushes := r.failedFlushes.modify t (· + 1) }

def recordFailedCommit (r : Report) (t : Table) : Report :=
  { r with failedCommits := r.failedCommits.modify t (· + 1) }

/-- One line with the rows of every table, the time taken and the failures if there were any. -/
def text (r : Report) (elapsed : String) : String :=
  let counts := Table.all.map fun t => s!" {r.written.get t} {t.label}"
  let tail := if r.failures = 0 then "" else s!" ({r.failures} failed flushes or commits)"
  "Loaded" ++ String.intercalate "," counts ++ " in " ++ elapsed ++ tail

end Report

end MapLoader
