import MapLoader.Proofs.Load.Content
import MapLoader.Proofs.Load.Lockstep

/-! A load that meets no fault is exact. It succeeds, leaves no connection open, and the tables
hold the elements that the filter let through: each once and in order, their authors, and the
members of each in order. -/

namespace MapLoader

open scoped List

namespace Account

variable {closing : Prop} {t : Table} {a b : Account}

/-- Every row that was executed is committed, or is in the open transaction. -/
def Lossless (a : Account) : Prop := ∀ t, a.executed t = a.committed t ++ a.openRows t

theorem Writes.held_eq {struck : Prop} {x : Batch} {o : Except SessionError Nat}
    (hs : ¬ struck) (he : Writes closing struck x a o b) (u : Table) :
    b.held u = a.held u ++ if x.table = u then x.rows else [] := by
  cases he with
  | failed _ hs' _ => exact absurd hs' hs
  | posted hb =>
    obtain ⟨-, start, hd⟩ := hb.plain hs
    rw [held_posted hb.openTable?_eq, hd.held_eq]

/-- A flush during which no call was struck adds the rows of its batch to those that are committed
or open. -/
theorem Flushed.held_eq {struck : Prop} {x : Batch} {o : FlushOutcome} (hs : ¬ struck)
    (he : Flushed closing struck x a o b) :
    o ≠ .failed ∧ ∀ u, b.held u = a.held u ++ if x.table = u then x.rows else [] := by
  cases he with
  | failed hw => exact absurd hw.struck_of_error hs
  | flushed hw => exact ⟨nofun, hw.held_eq hs⟩
  | committed hw he =>
    have hb := (held_closed he.current_eq).trans he.committed_eq
    exact ⟨nofun, fun u => (congrFun hb u).trans (hw.held_eq hs u)⟩
  | commitFailed hs' _ _ => exact absurd hs' hs

theorem Flushed.calm {struck : Prop} {x : Batch} {o : FlushOutcome} (hs : ¬ struck)
    (h : a.Lossless) (he : Flushed closing struck x a o b) : o ≠ .failed ∧ b.Lossless := by
  obtain ⟨ho, hb⟩ := he.held_eq hs
  refine ⟨ho, fun u => ?_⟩
  have hx := he.executed_eq u
  simp only [ho, ne_eq, not_false_eq_true, true_and, h u] at hx
  exact hx.trans (hb u).symm

end Account

/-- The tables hold these elements in order, their authors, and, unless an id is repeated, the
members of each element next to one another and in order; each as its row is written out. -/
structure Stored (us : List User) (es : List Entity) (tables : Table → List Row) : Prop where
  elements (k : ElementKind) : tables k.table = elementRows k es
  users : Authored us (tables .users)
  wayNodes : ((wayLists es).map Prod.fst).Nodup →
    ∃ lists, lists ~ wayLists es ∧ tables .wayNodes = lists.flatMap wayListRows
  relationMembers : ((memberLists es).map Prod.fst).Nodup →
    ∃ lists, lists ~ memberLists es ∧ tables .relationMembers = lists.flatMap memberListRows

theorem Content.stored {us : List User} {es : List Entity} {executed : Table → List Row}
    {b : Buffers} (h : Content us es executed b) (hb : ∀ t, b.size t = 0) :
    Stored us es executed := by
  have hn (t : Table) : (b.batch t).rows = [] := Buffers.rows_batch_of_size (hb t)
  have hu := h.users
  rw [hn, List.append_nil] at hu
  refine ⟨fun k => ?_, hu, h.wayNodes.all (hb .wayNodes),
    h.relationMembers.all (hb .relationMembers)⟩
  rw [h.elements k, hn, List.append_nil]

namespace Accumulator

structure Exact (us : List User) (es : List Entity) (a : FaultyAccumulator) (A : Account) :
    Prop where
  keeps : a.session.Keeps [.executeKeep] A
  lossless : A.Lossless
  content : Content us es A.executed a.buffers
  written (t : Table) : a.report.written.get t = (A.executed t).length
  failures : a.report.failures = 0

/-- If nothing was struck, the state is exact. -/
def Spotless (us : List User) (es : List Entity) (a : FaultyAccumulator) : Prop :=
  a.session.store.strikes = 0 → ∃ A, Exact us es a A

theorem Exact.flush {us : List User} {es : List Entity} {a : FaultyAccumulator} {A : Account}
    (h : Exact us es a A) {t : Table} (ht : a.buffered t ≠ 0)
    (hs : ¬ a.session.store.strikes < (a.flush t).2.session.store.strikes) :
    (a.flush t).2.buffers = a.buffers.clear t ∧ ∃ B, Exact us es (a.flush t).2 B := by
  obtain ⟨⟨B, hB, he⟩, hbl⟩ := keeps_flush h.keeps (by simp) ht
  obtain ⟨hb, hw⟩ := flush_frame t a ht
  obtain ⟨ho, hl⟩ := he.calm hs h.lossless
  have hx := he.executed_eq
  have hr := he.rows_eq
  rw [if_neg ho] at hb
  rw [if_pos ho] at hr
  simp only [ho, Buffers.table_batch, ne_eq, not_false_eq_true, true_and] at hx
  refine ⟨hb, B, hB, hl, ?_, fun u => ?_, ?_⟩
  · rw [hb, funext hx]
    exact h.content.flush t
  · rw [hw u, hr, hx u, h.written u, List.length_append]
    by_cases hu : t = u
    · simp [hu]
    · simp [hu, Ne.symm hu]
  · exact (hbl.resolve_left hs).trans h.failures

theorem Spotless.flush {us : List User} {es : List Entity} {a : FaultyAccumulator}
    (h : Spotless us es a) (t : Table) (hs : (a.flush t).2.session.store.strikes = 0) :
    (∃ A, Exact us es (a.flush t).2 A) ∧
      ∀ u, (a.flush t).2.buffered u = if u = t then 0 else a.buffered u := by
  have hle := (attended_flush Faulty.monitor t a).always.1
  have hz : a.session.store.strikes = 0 := Nat.le_zero.1 (hs ▸ hle)
  obtain ⟨A, hA⟩ := h hz
  by_cases ht : a.buffered t = 0
  · rw [flush_empty ht]
    refine ⟨⟨A, hA⟩, fun u => ?_⟩
    by_cases hu : u = t <;> simp [hu, ht]
  · obtain ⟨hb, hB⟩ := hA.flush ht (by rw [hs]; exact Nat.not_lt_zero _)
    refine ⟨hB, fun u => ?_⟩
    rw [buffered, hb, Buffers.size_clear]
    rfl

theorem invariant_spotless : Invariant Spotless where
  author u h hs := by
    obtain ⟨A, hA⟩ := h hs
    exact ⟨A, hA.keeps, hA.lossless, hA.content.author u, hA.written, hA.failures⟩
  element e h hs := by
    obtain ⟨A, hA⟩ := h hs
    exact ⟨A, hA.keeps, hA.lossless, hA.content.element e, hA.written, hA.failures⟩
  flush t h hs := (h.flush t hs).1

theorem exact_new (faults : List Fault) (hf : Fault.Conforming faults) (thresholds : Thresholds)
    (policy : CounterReset) : Exact [] [] (fresh faults thresholds policy) ⟨{}, []⟩ where
  keeps := Session.keeps_conforming hf
  lossless _ := rfl
  content := .empty
  written t := PerTable.get_const 0 t
  failures := rfl

/-- Flushing tables one after another empties them, and fills none. -/
theorem buffered_flushes {us : List User} {es : List Entity} {a : FaultyAccumulator}
    (h : Spotless us es a) (ts : List Table) (hs : (a.flushes ts).session.store.strikes = 0)
    {t : Table} (ht : t ∈ ts ∨ a.buffered t = 0) : (a.flushes ts).buffered t = 0 := by
  induction ts generalizing a with
  | nil => simpa using ht
  | cons u ts ih =>
    have hle := (attended_flushes Faulty.monitor ts (a.flush u).2).always.1
    have hz : (a.flush u).2.session.store.strikes = 0 := Nat.le_zero.1 (hs ▸ hle)
    obtain ⟨hA, hb⟩ := h.flush u hz
    refine ih (fun _ => hA) hs ?_
    rw [hb t]
    by_cases htu : t = u
    · exact .inr (if_pos htu)
    · rw [if_neg htu]
      exact ht.imp_left fun hm => (List.mem_cons.1 hm).resolve_left htu

theorem buffered_flushAll {us : List User} {es : List Entity} {a : FaultyAccumulator}
    (h : Spotless us es a) (hs : a.flushAll.session.store.strikes = 0) (t : Table) :
    a.flushAll.buffered t = 0 := by
  rw [flushAll_eq] at hs ⊢
  exact buffered_flushes h Table.all hs (.inl (Table.mem_all t))

/-- Unless a call is struck, finishing commits the transaction that is open. -/
theorem finish_calm {spared : List CallPoint} {a : FaultyAccumulator} {A : Account}
    (hA : a.flushAll.session.Keeps spared A)
    (hs : ¬ a.flushAll.session.store.strikes < a.finish.2.session.store.strikes) :
    a.finish.1 = .ok a.flushAll.report ∧ ∃ B, a.finish.2.session.Keeps spared B ∧
      B.current = none ∧ B.committed = A.held ∧ B.batches = A.batches := by
  obtain ⟨B, o, he, hB, -, ho⟩ := keeps_finish hA
  obtain ⟨rfl, hok⟩ := ho.resolve_right fun h => hs h.2
  exact ⟨hok, B, hB, he.current_eq, he.committed_eq, (Account.steady_batches _).ends rfl he⟩

theorem strikes_flushAll {a : FaultyAccumulator} (hs : a.finish.2.session.store.strikes = 0) :
    a.flushAll.session.store.strikes = 0 :=
  Nat.le_zero.1 (hs ▸ (attended_ending Faulty.monitor a).always.1)

/-- A load that met no fault finishes well, and then nothing waits and nothing is open. -/
theorem Spotless.finish {us : List User} {es : List Entity} {a : FaultyAccumulator}
    (h : Spotless us es a) (hs : a.finish.2.session.store.strikes = 0) :
    ∃ r A, a.finish.1 = .ok r ∧ r.isComplete = true ∧ a.finish.2.session.Keeps [.executeKeep] A ∧
      A.current = none ∧ Stored us es A.committed ∧
      ∀ t, r.written.get t = (A.committed t).length := by
  have hz := strikes_flushAll hs
  have hf : Spotless us es a.flushAll :=
    @Invariant.flushes _ _ _ _ invariant_spotless us es a Table.all h
  obtain ⟨A, hA⟩ := hf hz
  obtain ⟨ho, B, hB, hn, hheld, -⟩ :=
    finish_calm hA.keeps (by rw [hs]; exact Nat.not_lt_zero _)
  have hc : B.committed = A.executed := hheld.trans (funext fun t => (hA.lossless t).symm)
  refine ⟨_, B, ho, ?_, hB, hn, hc ▸ hA.content.stored (buffered_flushAll h hz), fun t => ?_⟩
  · rw [Report.isComplete_iff]
    exact hA.failures
  · rw [hA.written t, hc]

theorem spotless_drained (options : LoadOptions) (entities : List Entity) :
    Spotless ((options.filter.admitted entities).map Entity.user)
      (options.filter.admitted entities) (drained options { inner := {} } entities) := by
  refine invariant_spotless.drained ?report ?tell ?new entities
  case report =>
    intro us es a r hw hf hc ha hs
    obtain ⟨A, hA⟩ := ha hs
    have hr : r.failures = a.report.failures := by rw [Report.failures, hf, hc, Report.failures]
    exact ⟨A, hA.keeps, hA.lossless, hA.content, hw ▸ hA.written, hr.trans hA.failures⟩
  case tell =>
    intro us es a n ha hs
    obtain ⟨A, hA⟩ := ha hs
    exact ⟨A, hA.keeps.tell n, hA.lossless, hA.content, hA.written, hA.failures⟩
  case new =>
    intro _
    exact ⟨_, exact_new [] (List.forall_mem_nil _) options.thresholds options.counterReset⟩

end Accumulator

theorem ingest_stored (options : LoadOptions) (entities : List Entity)
    (h : (ingest options ({ inner := {} } : Faulty Memory) entities).2.store.strikes = 0) :
    ∃ r A, (ingest options ({ inner := {} } : Faulty Memory) entities).1 = .ok r ∧
      r.isComplete = true ∧
      (ingest options ({ inner := {} } : Faulty Memory) entities).2.Keeps [.executeKeep] A ∧
      A.current = none ∧
      Stored ((options.filter.admitted entities).map Entity.user)
        (options.filter.admitted entities) A.committed ∧
      ∀ t, r.written.get t = (A.committed t).length := by
  have hd := Accumulator.spotless_drained options entities
  rw [ingest_eq] at h ⊢
  generalize Accumulator.drained options ({ inner := {} } : Faulty Memory) entities = a at hd h ⊢
  dsimp only at h ⊢
  exact hd.finish h

/-- Whatever faults are laid, a load that is not struck by any of them succeeds with a complete
report, and leaves no connection open. The tables hold the elements that the filter let through,
their authors and their members, and the report counts the rows of each table. -/
theorem ingest_exact (options : LoadOptions) (faults : List Fault) (entities : List Entity)
    (h : (ingest options ({ faults, inner := {} } : Faulty Memory) entities).2.store.strikes = 0) :
    let admitted := options.filter.admitted entities
    let s := (ingest options ({ faults, inner := {} } : Faulty Memory) entities).2
    ∃ report, (ingest options ({ faults, inner := {} } : Faulty Memory) entities).1 = .ok report ∧
      report.isComplete = true ∧ s.live = none ∧ s.store.inner.openConnections = 0 ∧
      Stored (admitted.map Entity.user) admitted
        (fun t => (s.store.inner.committed.get t).toList) ∧
      ∀ t, report.written.get t = (s.store.inner.committed.get t).size := by
  have hst := ingest_stored options entities
  have hcalm := @Faulty.ingest_calm Memory _ _ options entities { faults, inner := {} }
  have hc : Faulty.calm { faults, inner := ({} : Memory) } = { inner := {} } := rfl
  rw [hc] at hcalm
  generalize ingest options ({ faults, inner := {} } : Faulty Memory) entities = x at h hcalm ⊢
  rw [hcalm h] at hst
  obtain ⟨o, s⟩ := x
  dsimp only at h hst ⊢
  obtain ⟨r, A, ho, hr, hA, hn, hstored, hw⟩ := hst h
  have hl : (fun t => (s.store.inner.committed.get t).toList) = A.committed :=
    congrArg Ledger.committed hA.ledger_eq
  obtain ⟨hlive, hopen⟩ := hA.released hn
  refine ⟨r, ho, hr, hlive, hopen, hl ▸ hstored, fun t => ?_⟩
  rw [hw t, ← hl]
  exact Array.length_toList

def idleFaults : List Fault :=
  [{ point := .connect, skip := 19 }, { point := .execute, table := some "nodes", skip := 5 }]

theorem ingest_exact_idle :
    (ingest tightOptions ({ faults := idleFaults, inner := {} } : Faulty Memory)
        smallStream).2.store.strikes = 0 ∧
      let admitted := tightOptions.filter.admitted smallStream
      let s := (ingest tightOptions ({ faults := idleFaults, inner := {} } : Faulty Memory)
        smallStream).2
      let rows := fun t => (s.store.inner.committed.get t).toList
      rows .users = [[.integer 7, .text "ann"], [.integer 8, .text "NO_NAME_FOUND"],
          [.integer 7, .text "ann"], [.integer 9, .text "joe"]] ∧
        rows .relations =
          [[.integer 3, .integer 0, .integer 7, .null, .integer 0, .text "\x7b\x7d"]] ∧
        rows .relationMembers = [[.integer 3, .integer 2, .text "Way", .text "outer", .integer 0],
          [.integer 3, .integer 1, .text "Node", .text "", .integer 1]] ∧
        ∃ report, (ingest tightOptions ({ faults := idleFaults, inner := {} } : Faulty Memory)
            smallStream).1 = .ok report ∧
          report.isComplete = true ∧ s.live = none ∧ s.store.inner.openConnections = 0 ∧
          Stored (admitted.map Entity.user) admitted rows ∧
          ∀ t, report.written.get t = (s.store.inner.committed.get t).size :=
  ⟨rfl, by decide +kernel, by decide +kernel, by decide +kernel,
    ingest_exact tightOptions idleFaults smallStream rfl⟩

end MapLoader
