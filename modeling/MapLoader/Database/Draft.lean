import MapLoader.Database.Basic

/-! A database as an open transaction sees it. The transaction can be taken back to a savepoint
without being given up. -/

namespace MapLoader

structure Draft where
  current : Database
  /-- The database as it stood at each savepoint, the latest first. -/
  savepoints : List Database := []
  deriving DecidableEq, Inhabited, Repr

namespace Draft

def save (w : Draft) : Draft := { w with savepoints := w.current :: w.savepoints }

/-- Gives up the latest savepoint and keeps what was done since. -/
def release (w : Draft) : Draft := { w with savepoints := w.savepoints.tail }

/-- Takes back what was done since the latest savepoint, and keeps the savepoint. -/
def revert (w : Draft) : Draft := { w with current := w.savepoints.headD w.current }

def insertRows (t : Table) (rows : List Row) (w : Draft) : Except DatabaseError Unit × Draft :=
  let (outcome, current) := w.current.insertRows t rows
  (outcome, { w with current })

/-- What was done after a savepoint stays when it is given up. -/
theorem release_save (w : Draft) (d : Database) :
    release { w.save with current := d } = { w with current := d } := rfl

/-- What was done after a savepoint leaves no trace once it is taken back. -/
theorem release_revert_save (w : Draft) (d : Database) :
    release (revert { w.save with current := d }) = w := rfl

end Draft

end MapLoader
