import MapLoader.Load.Extract
import MapLoader.Proofs.Load.Lockstep

/-! What loading an extract comes to, taken apart: how reading ended, and what the load of the
elements came to that were read. -/

namespace MapLoader

namespace LoadRun

variable {σ σ' κ κ' : Type}

section

variable (path : Path) (ending : Extract.Ending) (malformed : List Malformed)
  (outcome : Except SessionError Report)

theorem store_conclude (session : Session σ κ) :
    (conclude path ending malformed outcome session).session.store = session.store := by
  cases ending with
  | complete =>
    cases outcome with
    | error e => rfl
    | ok report =>
      unfold conclude
      dsimp only
      split <;> rfl
  | broken e => rfl
  | aborted => rfl

theorem conclude_congr {session : Session σ κ} {session' : Session σ' κ'}
    (h : session.log = session'.log) :
    let x := conclude path ending malformed outcome session
    let y := conclude path ending malformed outcome session'
    x.outcome = y.outcome ∧ x.session.log = y.session.log ∧ x.readerLog = y.readerLog := by
  have hlog : #[.loading path.text] ++ session.log = #[.loading path.text] ++ session'.log := by
    rw [h]
  cases ending with
  | complete =>
    cases outcome with
    | error e => exact ⟨rfl, hlog, rfl⟩
    | ok report =>
      refine ⟨rfl, ?_, rfl⟩
      unfold conclude
      dsimp only
      split
      · exact congrArg (Array.push · (.droppedElements malformed.length)) hlog
      · exact hlog
  | broken e => exact ⟨rfl, hlog, rfl⟩
  | aborted => exact ⟨rfl, hlog, rfl⟩

end

section

variable {path : Path} {ending : Extract.Ending} {malformed : List Malformed}
  {outcome : Except SessionError Report} {session : Session σ κ}

theorem conclude_eq_ok {report : Report}
    (h : (conclude path ending malformed outcome session).outcome = .ok report) :
    ending = .complete ∧ ∃ r, outcome = .ok r ∧ r.isComplete = report.isComplete := by
  cases ending with
  | complete =>
    cases outcome with
    | error e => cases h
    | ok r =>
      obtain rfl := Except.ok.inj h
      exact ⟨rfl, r, rfl, rfl⟩
  | broken e => cases h
  | aborted => cases h

theorem malformed_conclude {report : Report}
    (h : (conclude path ending malformed outcome session).outcome = .ok report) :
    report.malformed = malformed.length := by
  cases ending with
  | complete =>
    cases outcome with
    | error e => cases h
    | ok r =>
      obtain rfl := Except.ok.inj h
      rfl
  | broken e => cases h
  | aborted => cases h

theorem readerLog_conclude : (conclude path ending malformed outcome session).readerLog =
    malformed.map .malformedElement := by
  cases ending with
  | complete => cases outcome <;> rfl
  | broken e => rfl
  | aborted => rfl

theorem conclude_eq_decode {p : Path} {e : Extract.DecodeError}
    (h : (conclude path ending malformed outcome session).outcome = .error (.decode p e)) :
    p = path ∧ ending = .broken e := by
  cases ending with
  | complete => cases outcome <;> cases h
  | broken e =>
    cases h
    exact ⟨rfl, rfl⟩
  | aborted => cases h

end

end LoadRun

section

variable {σ κ : Type} [Store σ κ]

theorem loadExtract_cases (options : LoadOptions) (store : σ) (path : Path) (files : FileTree) :
    (∃ e, files.entryAt path = .error e ∧ loadExtract options store path files =
      { outcome := .error (.open path e), session := { store, log := #[.loading path.text] } }) ∨
    ∃ entry, files.entryAt path = .ok entry ∧ loadExtract options store path files =
      .conclude path entry.stream.ending entry.stream.malformed
        (ingest options store entry.stream.entities).1
        (ingest options store entry.stream.entities).2 := by
  unfold loadExtract
  cases files.entryAt path with
  | error e => exact .inl ⟨e, rfl, rfl⟩
  | ok entry =>
    refine .inr ⟨entry, rfl, ?_⟩
    dsimp only [loadStream]

theorem loadExtract_decode {options : LoadOptions} {store : σ} {path p : Path} {files : FileTree}
    {e : Extract.DecodeError}
    (h : (loadExtract options store path files).outcome = .error (.decode p e)) :
    p = path ∧ ∃ entry, files.entryAt path = .ok entry ∧ entry.stream.ending = .broken e ∧
      (loadExtract options store path files).session.store =
        (ingest options store entry.stream.entities).2.store := by
  obtain ⟨e', -, he⟩ | ⟨entry, hentry, he⟩ := loadExtract_cases options store path files <;>
    rw [he] at h ⊢
  · cases h
  · obtain ⟨hp, hending⟩ := LoadRun.conclude_eq_decode h
    refine ⟨hp, entry, hentry, hending, ?_⟩
    rw [LoadRun.store_conclude]

theorem loadExtract_bare (options : LoadOptions) (store : σ) (path : Path) (files : FileTree) :
    let x := loadExtract options ({ inner := store } : Faulty σ) path files
    let y := loadExtract options store path files
    x.outcome = y.outcome ∧ x.session.log = y.session.log ∧ x.readerLog = y.readerLog ∧
      x.session.store.inner = y.session.store := by
  unfold loadExtract
  cases files.entryAt path with
  | error e => exact ⟨rfl, rfl, rfl, rfl⟩
  | ok entry =>
    have hbare := Faulty.ingest_bare options entry.stream.entities store
    dsimp only [loadStream] at hbare ⊢
    rw [LoadRun.store_conclude, LoadRun.store_conclude]
    generalize ingest options ({ inner := store } : Faulty σ) entry.stream.entities = x at hbare ⊢
    generalize ingest options store entry.stream.entities = y at hbare ⊢
    obtain ⟨o, s⟩ := x
    obtain ⟨rfl, hlog, hstore⟩ := hbare
    obtain ⟨ho, hl, hr⟩ :=
      LoadRun.conclude_congr path entry.stream.ending entry.stream.malformed _ hlog
    exact ⟨ho, hl, hr, hstore⟩

end

end MapLoader
