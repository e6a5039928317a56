import MapLoader.Proofs.Load.Extract
import MapLoader.Proofs.Load.Recovery

/-! What a load that stopped at undecodable data leaves behind. Its error is the reader's, whatever
the store said, so it does not tell whether all that was read before was committed; the transactions
and the counts of the load do. -/

namespace MapLoader

namespace Accumulator

theorem Recorded.invariant {σ κ : Type} [Store σ κ] {P : List Batch → Accumulator σ κ → Prop}
    (R : Recorded P) : Invariant fun _ _ a => ∃ xs, P xs a where
  author u h := h.imp fun _ h => R.author u h
  element e h := h.imp fun _ h => R.element e h
  flush t h := h.elim fun xs h => ⟨xs ++ _, R.flush t h⟩

theorem conserves_drained (options : LoadOptions) {faults : List Fault}
    (hf : Fault.Conforming faults) (entities : List Entity) :
    Conserves (options.filter.admitted entities)
      (drained options { faults, inner := {} } entities) :=
  @Invariant.drained _ _ _ _ invariant_conserves options { faults, inner := {} }
    (fun _ _ _ _ h => h)
    (fun n h => h.imp fun _ h => ⟨h.1.tell n, h.2⟩)
    (conserves_new faults hf options.thresholds options.counterReset) entities

theorem reckoned_drained (options : LoadOptions) {faults : List Fault}
    (hf : Fault.Conforming faults) (entities : List Entity) :
    ∃ xs A, (drained options { faults, inner := {} } entities).session.Keeps [.executeKeep] A ∧
      ((drained options { faults, inner := {} } entities).books A xs).Reckoned := by
  have hR : Recorded fun xs (a : FaultyAccumulator) => ∃ A, a.session.Keeps [.executeKeep] A ∧
      (a.books A xs).Reckoned := recorded_books Books.Reckoned.entry (by simp)
  refine @Invariant.drained _ _ _ _ hR.invariant options { faults, inner := {} } ?report ?tell ?new
    entities
  case report =>
    rintro - - a r hw - hc ⟨xs, A, hA, h⟩
    refine ⟨xs, A, hA, h.fair, fun t => ?_, fun t => ?_⟩
    · exact (congrArg (PerTable.get · t) hw).trans (h.written t)
    · exact Nat.le_trans (h.charged t) (Nat.le_of_eq (congrArg (PerTable.get · t) hc).symm)
  case tell =>
    rintro - - a n ⟨xs, A, hA, h⟩
    exact ⟨xs, A, hA.tell n, h⟩
  case new =>
    exact ⟨[], _, Session.keeps_conforming hf, Account.fair_empty, PerTable.get_const 0,
      fun _ => Nat.zero_le _⟩

theorem Conserves.committed_eq {es : List Entity} {a : FaultyAccumulator} (hc : Conserves es a)
    {A : Account} {counters : Counters} {xs : List Batch}
    (hA : a.session.Keeps [.executeKeep] A) (hn : A.current = none)
    (hr : Books.Reckoned ⟨A, counters, a.report.written, a.report.failedCommits, xs⟩)
    {k : ElementKind} (hw : (a.buffers.batch k.table).rows = [])
    (hk : a.report.failedCommits.get k.table = 0) :
    (a.session.store.inner.committed.get k.table).toList = elementRows k es := by
  have hall := rowsWith_elements hc hA hr hk
  rw [rowsWith, hw, List.append_nil, Account.held_closed hn] at hall
  exact (hA.committed_eq k.table).trans hall

/-- The elements of a kind are all committed just if none waits and no transaction with rows of
its table was lost. -/
theorem Conserves.committed_iff {es : List Entity} {a : FaultyAccumulator} (hc : Conserves es a)
    (k : ElementKind) :
    (a.session.store.inner.committed.get k.table).toList = elementRows k es ↔
      (a.buffers.batch k.table).rows = [] ∧
        ∀ x ∈ a.session.store.inner.transactions, x.rows k.table ≠ [] → x.committed = true := by
  obtain ⟨hrows, -, hstore⟩ := hc.store
  obtain ⟨hexecuted, hcommitted⟩ := hstore k.table
  have hsplit := Transaction.length_rows_split k.table a.session.store.inner.transactions
  rw [hrows k, ← hcommitted, ← hexecuted, ← Transaction.rows_kept_iff]
  generalize a.session.store.inner.transactions.flatMap (Transaction.rows k.table) = executed
    at hsplit ⊢
  constructor
  · intro h
    rw [h, List.length_append] at hsplit
    have hnil : (a.buffers.batch k.table).rows = [] := List.length_eq_zero_iff.1 (by omega)
    rw [hnil, List.append_nil] at h
    exact ⟨hnil, h⟩
  · rintro ⟨hnil, h⟩
    rw [h, hnil, List.append_nil]

end Accumulator

/-- If a load stopped at undecodable data, the stream broke off there, and all that came before was
handed to the store. Of the elements that the filter let through, those of a kind were executed in
order, but for the last ones that may still wait; they are all committed just if none waits and no
transaction with rows of their table was lost. So they are if none waits and no failed commit of
their table was counted. -/
theorem decode_error_tells (options : LoadOptions) (faults : List Fault)
    (hf : Fault.Conforming faults) (path p : Path) (files : FileTree) (e : Extract.DecodeError)
    (h : (loadExtract options ({ faults, inner := {} } : Faulty Memory) path files).outcome =
      .error (.decode p e)) :
    p = path ∧ ∃ entry, files.entryAt path = .ok entry ∧ entry.stream.ending = .broken e ∧
      let elements := fun k => elementRows k (options.filter.admitted entry.stream.entities)
      let m := (loadExtract options ({ faults, inner := {} } : Faulty Memory) path
        files).session.store.inner
      let a := (Accumulator.drained options ({ faults, inner := {} } : Faulty Memory)
        entry.stream.entities).finish.2
      m = a.session.store.inner ∧ ∀ k : ElementKind,
        elements k = m.executed k.table ++ (a.buffers.batch k.table).rows ∧
          ((m.committed.get k.table).toList = elements k ↔
            (a.buffers.batch k.table).rows = [] ∧
              ∀ x ∈ m.transactions, x.rows k.table ≠ [] → x.committed = true) ∧
          ((a.buffers.batch k.table).rows = [] → a.report.failedCommits.get k.table = 0 →
            (m.committed.get k.table).toList = elements k) := by
  obtain ⟨hp, entry, hentry, hending, hstore⟩ := loadExtract_decode h
  refine ⟨hp, entry, hentry, hending, ?_⟩
  have hc := (Accumulator.conserves_drained options hf entry.stream.entities).finish
  obtain ⟨xs, A, hA, hr⟩ := Accumulator.reckoned_drained options hf entry.stream.entities
  obtain ⟨D, counters, ys, hD, hn, hrD⟩ := Accumulator.reckoned_finish hA hr
  rw [ingest_eq] at hstore
  generalize (Accumulator.drained options ({ faults, inner := {} } : Faulty Memory)
    entry.stream.entities).finish = x at hc hD hrD hstore ⊢
  dsimp only at hstore ⊢
  rw [hstore]
  exact ⟨rfl, fun k => ⟨hc.store.1 k, hc.committed_iff k,
    fun hw hk => hc.committed_eq hD hn hrD hw hk⟩⟩

instance decidableEqExcept {ε α : Type} [DecidableEq ε] [DecidableEq α] :
    DecidableEq (Except ε α)
  | .error e, .error e' => decidable_of_iff (e = e') (by simp)
  | .ok a, .ok a' => decidable_of_iff (a = a') (by simp)
  | .error _, .ok _ | .ok _, .error _ => isFalse (by simp)

def brokenExtract : List UInt8 :=
  [0, 0, 0, 11, 10, 7, 79, 83, 77, 68, 97, 116, 97, 24, 14, 10, 12, 10, 0, 18, 8, 10, 6, 8, 2, 64,
    0, 72, 0, 255, 255, 255, 255]

def extractPath : Path := .ofText "extract.osm.pbf"

def brokenFiles : FileTree := { entries := [(["extract.osm.pbf"], .file (.bytes brokenExtract))] }

theorem decode_error_tells_closing :
    Fault.Conforming Session.closingFaults ∧
      (loadExtract {} ({ faults := Session.closingFaults, inner := {} } : Faulty Memory) extractPath
        brokenFiles).outcome = .error (.decode extractPath (.headerTooBig 4294967295)) ∧
      (loadExtract {} ({ faults := Session.closingFaults, inner := {} } : Faulty Memory) extractPath
        brokenFiles).session.store.strikes = 1 ∧
      ∃ entry, brokenFiles.entryAt extractPath = .ok entry ∧
        ((loadExtract {} ({ faults := Session.closingFaults, inner := {} } : Faulty Memory)
            extractPath brokenFiles).session.store.inner.committed.get .nodes).toList =
          elementRows .node (ElementFilter.all.admitted entry.stream.entities) := by
  have hout : (loadExtract {} ({ faults := Session.closingFaults, inner := {} } : Faulty Memory)
      extractPath brokenFiles).outcome =
        .error (.decode extractPath (.headerTooBig 4294967295)) := by
    decide +kernel
  obtain ⟨-, entry, hentry, -, -, hall⟩ := decode_error_tells {} Session.closingFaults
    Session.conforming_closingFaults extractPath extractPath brokenFiles _ hout
  have he : entry = .file (.bytes brokenExtract) := by
    have hat : brokenFiles.entryAt extractPath = .ok (.file (.bytes brokenExtract)) := by
      decide +kernel
    exact Except.ok.inj (hentry.symm.trans hat)
  subst he
  exact ⟨Session.conforming_closingFaults, hout, by decide +kernel, _, hentry,
    (hall .node).2.2 (by decide +kernel) (by decide +kernel)⟩

def nodeCommitFaults : List Fault := [{ point := .commit, table := some "nodes" }]

/-- A decode error does not mean that what was read before was loaded: it comes before the error
of a last commit that failed, and nothing is left of either but the log. -/
theorem decode_error_hides_loss : ¬ ∀ (options : LoadOptions) (faults : List Fault),
    Fault.Conforming faults → ∀ (path : Path) (files : FileTree) (entry : FileEntry) (p : Path)
      (e : Extract.DecodeError),
      let run := loadExtract options ({ faults, inner := {} } : Faulty Memory) path files
      run.outcome = .error (.decode p e) → files.entryAt path = .ok entry →
        ∀ x ∈ options.filter.admitted entry.stream.entities,
          x.row ∈ (run.session.store.inner.committed.get x.kind.table).toList := by
  intro h
  have hf : Fault.Conforming nodeCommitFaults := by
    unfold Fault.Conforming
    decide
  have hall := h {} nodeCommitFaults hf extractPath brokenFiles (.file (.bytes brokenExtract))
    extractPath (.headerTooBig 4294967295) (by decide +kernel) (by decide +kernel)
  revert hall
  decide +kernel

end MapLoader
