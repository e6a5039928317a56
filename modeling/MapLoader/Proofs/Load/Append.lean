import MapLoader.Proofs.Load.Completeness
import MapLoader.Proofs.Load.Extract
import MapLoader.Proofs.Load.Mirror

/-! Loading into a database file that holds the six tables already, with any rows. New rows are only
added, whatever calls are struck; and a load that ends well and complete has read the whole extract
and added what the same load commits to an empty store. -/

namespace MapLoader

namespace DatabaseFile

variable {l : Location} {origin : Database} {s : DatabaseFile}

theorem ingest_appends (h : s.Holds l origin) (hr : origin.Ready) (options : LoadOptions)
    (faults : List Fault) (entities : List Entity) :
    let x := ingest options ({ faults, inner := s } : Faulty DatabaseFile) entities
    ∃ rows d, x.2.store.inner.Holds l d ∧ origin.Mirrors rows d ∧
      ∀ report, x.1 = .ok report → report.isComplete = true →
        rows = (ingest options ({} : Memory) entities).2.store.rows := by
  have hstart : (twinsOver l origin).apart { faults, inner := s } { faults, inner := {} } :=
    ⟨rfl, rfl, ⟨rfl, rfl, rfl⟩, _, h, Memory.rows_fresh ▸ .start hr⟩
  have hrun := (twinsOver l origin).ingest options entities hstart id
  have hcomplete := ingest_complete options ({ faults, inner := {} } : Faulty Memory) entities
  have hbare := Faulty.ingest_bare options entities ({} : Memory)
  have hcalm : ({ faults, inner := {} } : Faulty Memory).calm = { inner := {} } := rfl
  rw [hcalm] at hcomplete
  generalize ingest options ({ faults, inner := s } : Faulty DatabaseFile) entities = x at hrun ⊢
  generalize ingest options ({ faults, inner := {} } : Faulty Memory) entities = y
    at hrun hcomplete
  generalize ingest options ({ inner := {} } : Faulty Memory) entities = z at hcomplete hbare
  obtain ⟨u, rfl, hsessions⟩ := hrun
  obtain ⟨-, -, -, -, d, hd, hrows⟩ := sessions_twins hsessions
  refine ⟨_, d, hd, hrows, fun report ho hc => ?_⟩
  -- a complete load was not struck, so the faults made no difference to the store in memory either
  obtain ⟨-, -, hstore, -⟩ := hcomplete report ho hc
  rw [← hbare.2.2, hstore]

theorem loadExtract_appends (h : s.Holds l origin) (hr : origin.Ready) (options : LoadOptions)
    (faults : List Fault) (path : Path) (files : FileTree) :
    let x := loadExtract options ({ faults, inner := s } : Faulty DatabaseFile) path files
    ∃ rows d, x.session.store.inner.Holds l d ∧ origin.Mirrors rows d ∧
      ∀ report, x.outcome = .ok report → report.isComplete = true →
        ∃ entry, files.entryAt path = .ok entry ∧ entry.stream.ending = .complete ∧
          rows = (ingest options ({} : Memory) entry.stream.entities).2.store.rows := by
  obtain ⟨e, -, he⟩ | ⟨entry, hentry, he⟩ :=
    loadExtract_cases options ({ faults, inner := s } : Faulty DatabaseFile) path files
  · rw [he]
    exact ⟨_, origin, h, .start hr, fun _ ho => nomatch ho⟩
  · rw [he]
    obtain ⟨rows, d, hd, hrows, hall⟩ := ingest_appends h hr options faults entry.stream.entities
    generalize ingest options ({ faults, inner := s } : Faulty DatabaseFile)
      entry.stream.entities = x at hd hall ⊢
    dsimp only at hd hall ⊢
    rw [LoadRun.store_conclude]
    refine ⟨rows, d, hd, hrows, fun report ho hc => ?_⟩
    obtain ⟨hending, r, hr, hcr⟩ := LoadRun.conclude_eq_ok ho
    exact ⟨entry, hentry, hending, hall r hr (hcr.trans hc)⟩

end DatabaseFile
end MapLoader
