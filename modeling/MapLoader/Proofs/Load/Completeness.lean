import MapLoader.Proofs.Load.Lockstep
import MapLoader.Store.Memory

/-! A complete report is sound. A load that succeeds and reports no failure met none, and it did
to the store exactly what the same load does to a store without faults. -/

namespace MapLoader

/-- Whatever faults are laid, a load that reports itself complete was not struck by any of them,
and reported, told and stored what it would have without them. -/
theorem ingest_complete {σ κ : Type} [Store σ κ] (options : LoadOptions) (store : Faulty σ)
    (entities : List Entity) (report : Report)
    (h : (ingest options store entities).1 = .ok report) (hc : report.isComplete = true) :
    (ingest options store entities).2.store.strikes = store.strikes ∧
      (ingest options store.calm entities).1 = .ok report ∧
      (ingest options store.calm entities).2.store.inner =
        (ingest options store entities).2.store.inner ∧
      (ingest options store.calm entities).2.log = (ingest options store entities).2.log := by
  have hs := smoothly_ingest Faulty.monitor options store entities h hc
  have hcalm := @Faulty.ingest_calm σ κ _ options entities store
  generalize ingest options store entities = x at h hs hcalm ⊢
  have hx : x.2.store.strikes = store.strikes := Eq.symm hs
  rw [hcalm hx, h]
  exact ⟨hx, rfl, rfl, rfl⟩

def patientFaults : Faulty Memory :=
  { faults := [{ point := .commit, skip := 19 }, { point := .rollback }], inner := {} }

theorem ingest_complete_patient :
    ∃ report, (ingest tightOptions patientFaults smallStream).1 = .ok report ∧
      report.isComplete = true ∧
      (ingest tightOptions patientFaults smallStream).2.store.strikes = 0 ∧
      (ingest tightOptions patientFaults.calm smallStream).1 = .ok report ∧
      (ingest tightOptions patientFaults.calm smallStream).2.store.inner =
        (ingest tightOptions patientFaults smallStream).2.store.inner ∧
      (ingest tightOptions patientFaults.calm smallStream).2.log =
        (ingest tightOptions patientFaults smallStream).2.log :=
  ⟨_, rfl, rfl, ingest_complete tightOptions patientFaults smallStream _ rfl rfl⟩

end MapLoader
