import MapLoader.Proofs.Load.Bookkeeping
import MapLoader.Proofs.Load.Rows

/-! Nothing is lost between a buffer and the store, and nothing is doubled. Whatever calls are
struck, the rows of the elements added so far are those executed followed by those that still
wait, and the committed rows are the executed ones without some whole transactions. -/

namespace MapLoader

def ElementKind.table : ElementKind → Table
  | .node => .nodes
  | .way => .ways
  | .relation => .relations

theorem ElementKind.table_ne_users (k : ElementKind) : k.table ≠ .users := by cases k <;> decide

namespace Buffers

theorem batch_addUser (b : Buffers) (u : User) {t : Table} (ht : t ≠ .users) :
    (b.addUser u).batch t = b.batch t := by
  unfold addUser
  split
  · rfl
  · cases t <;> first | rfl | exact absurd rfl ht

theorem rows_batch_addElement (b : Buffers) (e : Entity) (k : ElementKind) :
    ((b.addElement e).batch k.table).rows =
      (b.batch k.table).rows ++ if e.kind = k then [e.row] else [] := by
  cases e <;> cases k <;>
    simp [addElement, addNode, addWay, addRelation, batch, ElementKind.table, Entity.kind,
      Batch.rows, Batch.bindings, Node.row_eq, Way.row_eq, Relation.row_eq, Entity.row]

end Buffers

namespace Accumulator

/-- The session keeps a fair account, and the rows of the elements that were added are those
executed followed by those that wait. -/
def Conserves (es : List Entity) (a : FaultyAccumulator) : Prop :=
  ∃ A, a.session.Keeps [.executeKeep] A ∧ A.Fair ∧
    ∀ k : ElementKind, elementRows k es = A.executed k.table ++ (a.buffers.batch k.table).rows

theorem Conserves.flush {es : List Entity} {a : FaultyAccumulator} (h : Conserves es a)
    (t : Table) : Conserves es (a.flush t).2 := by
  by_cases ht : a.buffered t = 0
  · rw [flush_empty ht]
    exact h
  · obtain ⟨A, hA, hfair, hrows⟩ := h
    obtain ⟨⟨B, hB, he⟩, -⟩ := keeps_flush hA (by simp) ht
    refine ⟨B, hB, Account.lasting_fair.flushed hfair he, fun k => ?_⟩
    rw [hrows k, (flush_frame t a ht).1, he.executed_eq, Buffers.table_batch]
    -- The rows of the buffer move to the store as a whole, or they all stay.
    by_cases hf : (a.flush t).1 = .failed
    · simp [hf]
    · rw [if_neg hf, Buffers.rows_batch_clear]
      by_cases hk : t = k.table
      · rw [if_pos ⟨hf, hk⟩, if_pos hk.symm, hk, List.append_nil]
      · rw [if_neg fun h => hk h.2, if_neg (Ne.symm hk), List.append_nil]

theorem invariant_conserves : Invariant fun _ es a => Conserves es a where
  author u h := by
    obtain ⟨A, hA, hfair, hrows⟩ := h
    refine ⟨A, hA, hfair, fun k => ?_⟩
    rw [hrows k, author, Buffers.batch_addUser _ u k.table_ne_users]
  element e h := by
    obtain ⟨A, hA, hfair, hrows⟩ := h
    refine ⟨A, hA, hfair, fun k => ?_⟩
    rw [elementRows_append, hrows k, element, Buffers.rows_batch_addElement, List.append_assoc]
  flush t h := h.flush t

theorem conserves_new (faults : List Fault) (hf : Fault.Conforming faults)
    (thresholds : Thresholds) (policy : CounterReset) :
    Conserves [] (fresh faults thresholds policy) := by
  refine ⟨⟨{}, []⟩, Session.keeps_conforming hf, Account.fair_empty, fun k => ?_⟩
  cases k <;> rfl

theorem conserves_performAll {faults : List Fault} (hf : Fault.Conforming faults)
    (thresholds : Thresholds) (policy : CounterReset) (calls : List Call) :
    Conserves (calls.filterMap Call.entity?)
      (performAll calls (fresh faults thresholds policy)) := by
  simpa using @Invariant.performAll _ _ _ _ invariant_conserves [] _ _ calls
    (conserves_new faults hf thresholds policy)

theorem Conserves.finish {es : List Entity} {a : FaultyAccumulator} (h : Conserves es a) :
    Conserves es a.finish.2 := by
  obtain ⟨A, hA, hfair, hrows⟩ : Conserves es a.flushAll :=
    @Invariant.flushes _ _ _ _ invariant_conserves [] _ _ Table.all h
  obtain ⟨B, o, he, hB, hb, -⟩ := keeps_finish hA
  refine ⟨B, hB, Account.lasting_fair.ends hfair he, fun k => ?_⟩
  rw [hb, hrows k, Account.executed_of_batches ((Account.steady_batches _).ends rfl he)]

theorem Conserves.store {es : List Entity} {a : FaultyAccumulator} (h : Conserves es a) :
    (∀ k : ElementKind, elementRows k es =
        a.session.store.inner.executed k.table ++ (a.buffers.batch k.table).rows) ∧
      (∀ x ∈ a.session.store.inner.transactions, x.Uniform) ∧
      ∀ t, a.session.store.inner.transactions.flatMap (Transaction.rows t) =
          a.session.store.inner.executed t ∧
        (a.session.store.inner.transactions.filter Transaction.committed).flatMap
          (Transaction.rows t) = (a.session.store.inner.committed.get t).toList := by
  obtain ⟨A, hA, hfair, hrows⟩ := h
  have hpast : a.session.store.inner.transactions = A.history.reverse := by
    rw [Memory.transactions, hA.history_eq]
  refine ⟨fun k => ?_, fun x hx => hfair.uniform x (List.mem_reverse.1 (hpast ▸ hx)),
    fun t => ⟨Memory.flatMap_transactions _ t, ?_⟩⟩
  · rw [hrows k, hA.executed_eq]
  · rw [hA.committed_eq, hpast, hfair.committed t]

theorem Conserves.exists_element {es : List Entity} {a : FaultyAccumulator} (h : Conserves es a)
    {k : ElementKind} {r : Row}
    (hr : r ∈ (a.session.store.inner.committed.get k.table).toList) :
    ∃ e ∈ es, e.kind = k ∧ e.row = r := by
  obtain ⟨hrows, -, hall⟩ := h.store
  obtain ⟨hexecuted, hcommitted⟩ := hall k.table
  have hmem : r ∈ elementRows k es := by
    rw [hrows k, ← hexecuted]
    rw [← hcommitted] at hr
    obtain ⟨x, hx, hr⟩ := List.mem_flatMap.1 hr
    exact List.mem_append_left _ (List.mem_flatMap.2 ⟨x, (List.mem_filter.1 hx).1, hr⟩)
  obtain ⟨e, he, rfl⟩ := List.mem_map.1 hmem
  obtain ⟨he, hk⟩ := List.mem_filter.1 he
  exact ⟨e, he, of_decide_eq_true hk, rfl⟩

/-- In every state that adding and flushing can reach, finished or not, under any faults that
drop the batches they strike: the rows of the elements of a kind, in the order they were added,
are the rows executed followed by the rows that wait; each transaction is on one table; and the
committed rows are those executed without the rows of some whole transactions. -/
theorem conserves_elements (faults : List Fault) (hf : Fault.Conforming faults)
    (thresholds : Thresholds) (policy : CounterReset) (calls : List Call) (a : FaultyAccumulator)
    (ha : a = performAll calls (fresh faults thresholds policy) ∨
      a = (performAll calls (fresh faults thresholds policy)).finish.2) :
    let m := a.session.store.inner
    (∀ k : ElementKind, elementRows k (calls.filterMap Call.entity?) =
        m.executed k.table ++ (a.buffers.batch k.table).rows) ∧
      (∀ x ∈ m.transactions, x.Uniform) ∧
      ∀ t, m.transactions.flatMap (Transaction.rows t) = m.executed t ∧
        (m.transactions.filter Transaction.committed).flatMap (Transaction.rows t) =
          (m.committed.get t).toList := by
  have hall := @Invariant.performAll _ _ _ _ invariant_conserves [] _ _ calls
    (conserves_new faults hf thresholds policy)
  rw [List.nil_append] at hall
  generalize performAll calls (fresh faults thresholds policy) = b at ha hall
  have hc : Conserves (calls.filterMap Call.entity?) a := by
    cases ha with
    | inl h => exact h ▸ hall
    | inr h => exact h ▸ hall.finish
  exact hc.store

def mixedFaults : List Fault :=
  [{ point := .execute, skip := 1, times := some 1 },
    { point := .commit, skip := 2, times := some 1 },
    { point := .close, skip := 3, times := some 1 }]

def battered : FaultyAccumulator :=
  (performAll (smallStream.map .add) (fresh mixedFaults tightOptions.thresholds .perTable)).finish.2

theorem conserves_elements_battered :
    Fault.Conforming mixedFaults ∧
      let m := battered.session.store.inner
      (∀ k : ElementKind, elementRows k ((smallStream.map Call.add).filterMap Call.entity?) =
          m.executed k.table ++ (battered.buffers.batch k.table).rows) ∧
        (∀ x ∈ m.transactions, x.Uniform) ∧
        ∀ t, m.transactions.flatMap (Transaction.rows t) = m.executed t ∧
          (m.transactions.filter Transaction.committed).flatMap (Transaction.rows t) =
            (m.committed.get t).toList :=
  have hf : Fault.Conforming mixedFaults := by
    unfold Fault.Conforming
    decide
  ⟨hf, conserves_elements mixedFaults hf tightOptions.thresholds .perTable (smallStream.map .add)
    battered (.inr rfl)⟩

end Accumulator
end MapLoader
