import MapLoader.Row
import MapLoader.Store.Error

/-! The interface between a load and the store it writes to. A connection is prepared for one
table, gathers rows into a batch, executes the batch inside its transaction, and in the end
commits or rolls back; every step but gathering may fail. -/

namespace MapLoader

/-- A store with state `σ` whose connections have state `κ`. An operation gives its outcome and
the states after it. -/
class Store (σ : Type) (κ : outParam Type) where
  connect : σ → Except StoreError κ × σ
  prepare : Table → κ → σ → Except StoreError Unit × κ × σ
  addRow : Row → κ → σ → Except StoreError Unit × κ × σ
  /-- The number of rows gathered and not yet executed. -/
  pending : κ → Nat
  clearBatch : κ → κ
  /-- Executes the gathered rows and tells their number. -/
  execute : κ → σ → Except StoreError Nat × κ × σ
  commit : κ → σ → Except StoreError Unit × κ × σ
  rollback : κ → σ → Except StoreError Unit × κ × σ
  close : κ → σ → Except StoreError Unit × σ

end MapLoader
