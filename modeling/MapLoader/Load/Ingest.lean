import MapLoader.Load.Accumulator
import MapLoader.Load.Filter

/-! Loading a stream of elements: the filter first, then the accumulator, then the remaining
buffers. -/

namespace MapLoader

structure LoadOptions where
  thresholds : Thresholds := .default
  counterReset : CounterReset := .global
  filter : ElementFilter := .all
  /-- Decoded elements that may wait for the writer. -/
  channelCapacity : Nat := 4096
  deriving DecidableEq, Inhabited, Repr

namespace Accumulator

variable {σ κ : Type} [Store σ κ]

/-- Counts an element as skipped, or counts it as processed and adds it. -/
def dispatch (filter : ElementFilter) (a : Accumulator σ κ) (e : Entity) : Accumulator σ κ :=
  if filter.includes e.kind then
    { a with report := a.report.recordProcessed e.kind }.add e
  else { a with report := a.report.recordSkipped e.kind }

end Accumulator

/-- Loads a stream into a store, and gives the store back with what was told. -/
def ingest {σ κ : Type} [Store σ κ] (options : LoadOptions) (store : σ) (entities : List Entity) :
    Except SessionError Report × Session σ κ :=
  let a := Accumulator.new (κ := κ) store options.thresholds options.counterReset
  let a := entities.foldl (Accumulator.dispatch options.filter) a
  let (outcome, a) := (a.tell .drained).finish
  (outcome, a.session)

end MapLoader
