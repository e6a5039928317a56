import MapLoader.Proofs.Load.Lockstep
import MapLoader.Proofs.Load.Moves
import MapLoader.Proofs.Store.Mirror

/-! A load into a database file is the load into memory: it ends alike whatever calls are struck,
and the file then holds the rows that the store in memory has committed. -/

namespace MapLoader

namespace DatabaseFile

variable {l : Location} {origin : Database}

def twinsOver (l : Location) (origin : Database) : Lockstep (Faulty DatabaseFile) (Faulty Memory) :=
  Faulty.twins (lockstep l origin) fun _ => id

def twins (l : Location) : Lockstep (Faulty DatabaseFile) (Faulty Memory) := twinsOver l .fresh

theorem sessions_twins {s : Session (Faulty DatabaseFile) (Faulty.Connection Connection)}
    {s' : Session (Faulty Memory) (Faulty.Connection Memory.Connection)}
    (h : (twinsOver l origin).Sessions s s') :
    s.log = s'.log ∧ Faulty.Twins (Apart l origin) s.store s'.store := by
  cases h with
  | closed log h => exact ⟨rfl, h⟩
  | live log h => exact ⟨rfl, h.stores.faults, h.stores.strikes, h.stores.inner.linked.apart⟩

end DatabaseFile

theorem eq_ok_of_toOption {ε α : Type} {x : Except ε α} {a : α} (h : x.toOption = some a) :
    x = .ok a := by
  cases x with
  | error e => cases h
  | ok b => exact congrArg Except.ok (Option.some.inj h)

/-- A database of the connection's own is made without an error, but the tables are gone with the
connection that made them. No connection of a load finds them and nothing is written, while memory
takes the same stream. -/
theorem private_database_takes_nothing :
    let s : DatabaseFile := ⟨.ofText ":memory:", {}⟩
    let x := ingest tightOptions ({ inner := s } : Faulty DatabaseFile) smallStream
    let y := ingest tightOptions ({ inner := {} } : Faulty Memory) smallStream
    (DatabaseFile.create (.ofText ":memory:") {}).1 = .ok s ∧ x.1 ≠ y.1 ∧
      x.1.map (fun r => (r.isComplete, r.written)) = .ok (false, .const 0) ∧
      y.1.map (fun r => (r.isComplete, r.written)) = .ok (true, ⟨4, 2, 1, 3, 1, 2⟩) := by
  intro s x y
  have hx : x.1.map (fun r => (r.isComplete, r.written)) = .ok (false, .const 0) :=
    eq_ok_of_toOption (by decide +kernel)
  have hy : y.1.map (fun r => (r.isComplete, r.written)) = .ok (true, ⟨4, 2, 1, 3, 1, 2⟩) :=
    eq_ok_of_toOption (by decide +kernel)
  refine ⟨eq_ok_of_toOption (by decide +kernel), fun h => ?_, hx, hy⟩
  rw [h, hy] at hx
  cases hx

/-- Loading into a database file that was made afresh and loading into memory end alike, with the
same told and as many calls struck, whatever the options, the faults and the stream. After it each
table of the file holds the rows that the store in memory has committed, in order, with every
point as text. No row that a session can build has the wrong length or breaks a rule of its
table. -/
theorem ingest_mirrors_memory {p : Path} {files : FileTree} {s : DatabaseFile}
    (hcreate : (DatabaseFile.create p files).1 = .ok s)
    (hfile : DatabaseFile.namesFile p = true)
    (hnew : files.lookup (files.lexicalLocation p) = none) (options : LoadOptions)
    (faults : List Fault) (entities : List Entity) :
    let x := ingest options ({ faults, inner := s } : Faulty DatabaseFile) entities
    let y := ingest options ({ faults, inner := {} } : Faulty Memory) entities
    x.1 = y.1 ∧ x.2.log = y.2.log ∧ x.2.store.strikes = y.2.store.strikes ∧
      (∃ d, DatabaseFile.read x.2.store.inner.files (files.lexicalLocation p) = .ok d ∧
        ∀ t : Table, d.rows? t.name =
          some ((y.2.store.inner.committed.get t).map (List.map Value.cell))) ∧
      ∀ b : Batch, ∀ r ∈ b.rows,
        r.length = b.table.arity ∧ b.table.stored.Admits b.table.columns r := by
  have hholds := DatabaseFile.holds_fresh hcreate (DatabaseFile.isPrivate_of_namesFile hfile) hnew
  have hstart : (DatabaseFile.twins (files.lexicalLocation p)).apart { faults, inner := s }
      { faults, inner := {} } :=
    ⟨rfl, rfl, ⟨rfl, rfl, rfl⟩, _, hholds, Memory.rows_fresh ▸ .empty⟩
  have hrun := (DatabaseFile.twins (files.lexicalLocation p)).ingest options entities hstart id
  generalize ingest options ({ faults, inner := s } : Faulty DatabaseFile) entities = x at hrun ⊢
  generalize ingest options ({ faults, inner := {} } : Faulty Memory) entities = y at hrun ⊢
  obtain ⟨u, rfl, hsessions⟩ := hrun
  obtain ⟨hlog, -, hstrikes, -, d, hd, hrows⟩ := DatabaseFile.sessions_twins hsessions
  refine ⟨rfl, hlog, hstrikes.symm, ⟨d, hd.read, fun t => ?_⟩, fun b r hr =>
    ⟨Batch.length_row hr, Table.admits_stored (Batch.fits hr)⟩⟩
  rw [hrows.rows? t]
  simp only [Memory.rows, ← Array.toList_map, Array.toArray_toList]

def osmPath : Path := .ofText "maps/osm.db"

def mirroredFaults : List Fault :=
  [{ point := .executeKeep, skip := 1, times := some 1 },
    { point := .commit, table := some "nodes", times := some 1 }]

theorem ingest_mirrors_memory_small :
    DatabaseFile.namesFile osmPath = true ∧
      ({} : FileTree).lookup (({} : FileTree).lexicalLocation osmPath) = none ∧
    ∃ s, (DatabaseFile.create osmPath {}).1 = .ok s ∧
      let x := ingest tightOptions ({ faults := mirroredFaults, inner := s } : Faulty DatabaseFile)
        smallStream
      let y := ingest tightOptions ({ faults := mirroredFaults, inner := {} } : Faulty Memory)
        smallStream
      x.1 = y.1 ∧ x.2.log = y.2.log ∧ x.2.store.strikes = y.2.store.strikes ∧
        (∃ d, DatabaseFile.read x.2.store.inner.files
            (({} : FileTree).lexicalLocation osmPath) = .ok d ∧
          ∀ t : Table, d.rows? t.name =
            some ((y.2.store.inner.committed.get t).map (List.map Value.cell))) ∧
        ∀ b : Batch, ∀ r ∈ b.rows,
          r.length = b.table.arity ∧ b.table.stored.Admits b.table.columns r := by
  have hfile : DatabaseFile.namesFile osmPath = true := by decide +kernel
  have hnew : ({} : FileTree).lookup (({} : FileTree).lexicalLocation osmPath) = none := by
    decide +kernel
  have hok : (DatabaseFile.create osmPath {}).1.isOk = true := by decide +kernel
  cases hs : (DatabaseFile.create osmPath {}).1 with
  | error e =>
    rw [hs] at hok
    cases hok
  | ok s =>
    exact ⟨hfile, hnew, s, rfl,
      ingest_mirrors_memory hs hfile hnew tightOptions mirroredFaults smallStream⟩

end MapLoader
