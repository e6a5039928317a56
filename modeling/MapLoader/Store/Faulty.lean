import MapLoader.Store.Basic

/-! A store whose calls can be made to fail by a list of faults. A fault names the kind of call
it strikes, may be limited to connections prepared for one table, may let some calls pass first
and may strike a limited number of times. -/

namespace MapLoader

/-- The kinds of calls that can be struck. Executing can fail in two ways: with the gathered
rows dropped, or with the gathered rows kept. -/
inductive CallPoint
  | connect | prepare | addRow | execute | executeKeep | commit | rollback | close
  deriving DecidableEq, Inhabited, Repr

structure Fault where
  point : CallPoint
  /-- Strikes only connections last prepared for a table of this name. -/
  table : Option String := none
  /-- Calls to let pass before the first strike. -/
  skip : Nat := 0
  /-- Strikes left; without a number the fault never wears out. -/
  times : Option Nat := none
  deriving DecidableEq, Inhabited, Repr

namespace Fault

def concerns (f : Fault) (point : CallPoint) (prepared : Option Table) : Bool :=
  f.point == point && f.times != some 0 &&
    (f.table.isNone || f.table == prepared.map Table.name)

def spend (f : Fault) : Fault := { f with times := f.times.map (· - 1) }

/-- Tells whether a call is struck, and how the faults stand after it. The first fault that
concerns the call and has let enough calls pass strikes; those before it that concern the call
let one more pass. -/
def strike (point : CallPoint) (prepared : Option Table) : List Fault → Bool × List Fault
  | [] => (false, [])
  | f :: rest =>
    if f.concerns point prepared then
      match f.skip with
      | 0 => (true, f.spend :: rest)
      | n + 1 =>
        let (struck, rest) := strike point prepared rest
        (struck, { f with skip := n } :: rest)
    else
      let (struck, rest) := strike point prepared rest
      (struck, f :: rest)

/-- Faults that respect the promise every store makes: a batch that fails is dropped. -/
def Conforming (faults : List Fault) : Prop := ∀ f ∈ faults, f.point ≠ .executeKeep

end Fault

structure Faulty (σ : Type) where
  faults : List Fault := []
  /-- The number of calls that were struck. -/
  strikes : Nat := 0
  inner : σ
  deriving DecidableEq, Inhabited, Repr

structure Faulty.Connection (κ : Type) where
  table : Option Table := none
  inner : κ
  deriving DecidableEq, Inhabited, Repr

namespace Faulty

def struck {σ : Type} (s : Faulty σ) (faults : List Fault) : Faulty σ :=
  { s with faults, strikes := s.strikes + 1 }

variable {σ κ : Type} [Store σ κ]

def connect (s : Faulty σ) : Except StoreError (Connection κ) × Faulty σ :=
  match Fault.strike .connect none s.faults with
  | (true, faults) => (.error (.injected .connect), s.struck faults)
  | (false, faults) =>
    let (outcome, inner) := Store.connect s.inner
    (outcome.map fun c => { inner := c }, { s with faults, inner })

def prepare (t : Table) (c : Connection κ) (s : Faulty σ) :
    Except StoreError Unit × Connection κ × Faulty σ :=
  let c := { c with table := some t }
  match Fault.strike .prepare c.table s.faults with
  | (true, faults) => (.error (.injected .prepare), c, s.struck faults)
  | (false, faults) =>
    let (outcome, conn, inner) := Store.prepare t c.inner s.inner
    (outcome, { c with inner := conn }, { s with faults, inner })

def addRow (r : Row) (c : Connection κ) (s : Faulty σ) :
    Except StoreError Unit × Connection κ × Faulty σ :=
  match Fault.strike .addRow c.table s.faults with
  | (true, faults) => (.error (.injected .bind), c, s.struck faults)
  | (false, faults) =>
    let (outcome, conn, inner) := Store.addRow r c.inner s.inner
    (outcome, { c with inner := conn }, { s with faults, inner })

def execute (c : Connection κ) (s : Faulty σ) :
    Except StoreError Nat × Connection κ × Faulty σ :=
  match Fault.strike .execute c.table s.faults with
  | (true, faults) =>
    (.error (.injected .execute), { c with inner := Store.clearBatch σ c.inner }, s.struck faults)
  | (false, faults) =>
    match Fault.strike .executeKeep c.table faults with
    | (true, faults) => (.error (.injected .execute), c, s.struck faults)
    | (false, faults) =>
      let (outcome, conn, inner) := Store.execute c.inner s.inner
      (outcome, { c with inner := conn }, { s with faults, inner })

def commit (c : Connection κ) (s : Faulty σ) :
    Except StoreError Unit × Connection κ × Faulty σ :=
  match Fault.strike .commit c.table s.faults with
  | (true, faults) => (.error (.injected .commit), c, s.struck faults)
  | (false, faults) =>
    let (outcome, conn, inner) := Store.commit c.inner s.inner
    (outcome, { c with inner := conn }, { s with faults, inner })

def rollback (c : Connection κ) (s : Faulty σ) :
    Except StoreError Unit × Connection κ × Faulty σ :=
  match Fault.strike .rollback c.table s.faults with
  | (true, faults) => (.error (.injected .rollback), c, s.struck faults)
  | (false, faults) =>
    let (outcome, conn, inner) := Store.rollback c.inner s.inner
    (outcome, { c with inner := conn }, { s with faults, inner })

/-- A struck close still releases the connection. -/
def close (c : Connection κ) (s : Faulty σ) : Except StoreError Unit × Faulty σ :=
  let (outcome, inner) := Store.close c.inner s.inner
  match Fault.strike .close c.table s.faults with
  | (true, faults) => (.error (.injected .close), { s with inner }.struck faults)
  | (false, faults) => (outcome, { s with faults, inner })

instance : Store (Faulty σ) (Connection κ) where
  connect
  prepare
  addRow
  pending c := Store.pending σ c.inner
  clearBatch c := { c with inner := Store.clearBatch σ c.inner }
  execute
  commit
  rollback
  close

end Faulty

end MapLoader
