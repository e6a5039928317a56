import MapLoader.Proofs.Database.Insertion
import MapLoader.Store.Relational

/-! Any calls on one connection to a database, in any order. What lasts are the batches that
succeeded and that a commit follows before a rollback does, each as a whole. -/

namespace MapLoader

namespace Database

inductive Call
  | prepare (table : Table)
  | addRow (row : Row)
  | clearBatch
  | execute
  | commit
  | rollback
  deriving DecidableEq, Repr

def Call.perform : Call → Connection → Database → Except StoreError Unit × Connection × Database
  | prepare t, c, d => Store.prepare t c d
  | addRow r, c, d => Store.addRow r c d
  | clearBatch, c, d => (.ok (), Store.clearBatch Database c, d)
  | execute, c, d => ((Store.execute c d).1.map fun _ => (), (Store.execute c d).2)
  | commit, c, d => Store.commit c d
  | rollback, c, d => Store.rollback c d

/-- A connection in use with its database, and what was answered to the calls on it. -/
structure Usage where
  answers : List (Call × Except StoreError Unit) := []
  connection : Connection := {}
  database : Database

def Usage.call (x : Usage) (call : Call) : Usage :=
  let (outcome, c, d) := call.perform x.connection x.database
  ⟨x.answers ++ [(call, outcome)], c, d⟩

def use (d : Database) (calls : List Call) : Usage := calls.foldl Usage.call { database := d }

inductive Deed
  | batch (table : Table) (rows : List Row)
  | commit
  | rollback
  deriving DecidableEq, Repr

inductive Fate
  | undecided | kept | lost
  deriving DecidableEq, Repr

/-- The fate of rows before these deeds: the first commit or rollback decides it. -/
def fate : List Deed → Fate
  | [] => .undecided
  | .commit :: _ => .kept
  | .rollback :: _ => .lost
  | .batch .. :: rest => fate rest

/-- The batches that meet a fate, in order. -/
def batchesOf (f : Fate) : List Deed → List (Table × List Row)
  | [] => []
  | .batch t rows :: rest =>
    if fate rest = f then (t, rows) :: batchesOf f rest else batchesOf f rest
  | .commit :: rest | .rollback :: rest => batchesOf f rest

/-- What is known of a connection from the answers to the calls on it. A call that failed left no
mark, but executing emptied the batch. -/
structure Slate where
  statement : Option Table := none
  waiting : List Row := []
  deeds : List Deed := []

def Slate.mark (s : Slate) : Call × Except StoreError Unit → Slate
  | (.prepare t, .ok _) => { s with statement := some t, waiting := [] }
  | (.addRow r, .ok _) => { s with waiting := s.waiting ++ [r] }
  | (.clearBatch, .ok _) => { s with waiting := [] }
  | (.execute, .ok _) =>
    { s with
      waiting := []
      deeds := s.deeds ++ (s.statement.map fun t => .batch t s.waiting).toList }
  | (.execute, .error _) => { s with waiting := [] }
  | (.commit, .ok _) => { s with deeds := s.deeds ++ [.commit] }
  | (.rollback, .ok _) => { s with deeds := s.deeds ++ [.rollback] }
  | (_, .error _) => s

def Usage.slate (x : Usage) : Slate := x.answers.foldl Slate.mark {}

/-- When a call succeeds. -/
def Call.Allowed (c : Connection) (d : Database) : Call → Prop
  | prepare t => ∃ s, (c.view d).target t = .ok s
  | addRow r => ∃ t, c.statement = some t ∧ r.length = t.arity
  | execute => ∃ t, c.statement = some t ∧ (c.view d).Takes t c.pending.toList
  | clearBatch | commit | rollback => True

section Fate

variable {f : Fate}

theorem batchesOf_eq_nil {deeds : List Deed} (h : fate deeds = .undecided) (hf : f ≠ .undecided) :
    batchesOf f deeds = [] := by
  induction deeds with
  | nil => rfl
  | cons e rest ih =>
    cases e with
    | batch t rows =>
      have hr : fate rest = .undecided := h
      simp [batchesOf, hr, hf.symm, ih hr]
    | commit => cases h
    | rollback => cases h

theorem fate_append (xs ys : List Deed) :
    fate (xs ++ ys) = if fate xs = .undecided then fate ys else fate xs := by
  induction xs with
  | nil => rfl
  | cons e rest ih =>
    cases e with
    | batch t rows => exact ih
    | commit => rfl
    | rollback => rfl

theorem batchesOf_append (xs ys : List Deed) : batchesOf f (xs ++ ys) =
    (if f = .undecided then [] else batchesOf f xs) ++
      (if fate ys = f then batchesOf .undecided xs else []) ++ batchesOf f ys := by
  induction xs with
  | nil => simp [batchesOf]
  | cons e rest ih =>
    cases e with
    | batch t rows =>
      -- if `rest` leaves the batch undecided then `ys` decides, and nothing in `rest` is kept
      simp only [List.cons_append, batchesOf, fate_append, ih]
      by_cases hr : fate rest = .undecided
      · by_cases hf : f = .undecided
        · by_cases hy : fate ys = f <;> simp [hr, hf ▸ hy, hf]
        · by_cases hy : fate ys = f <;> simp [hr, hy, hf, Ne.symm hf, batchesOf_eq_nil hr hf]
      · by_cases hf : f = .undecided
        · simp [hr, hf]
        · by_cases hy : fate rest = f <;> simp [hr, hy, hf]
    | commit => exact ih
    | rollback => exact ih

end Fate

section Calls

variable {c : Connection} {d : Database}

/-- A batch that is refused is taken back, and what the transaction held before stays. -/
theorem execute_of_insertRows {t : Table} {o : Except DatabaseError Unit} {v : Database}
    (hs : c.statement = some t) (h : (c.view d).insertRows t c.pending.toList = (o, v)) :
    Store.execute c d = match o with
      | .ok _ => (.ok c.pending.size,
          { c with pending := #[], transaction := some { c.draft d with current := v } }, d)
      | .error e => (.error ⟨.execute, .database e⟩,
          { c with pending := #[], transaction := some (c.draft d) }, d) := by
  have hw : (c.draft d).save.insertRows t c.pending.toList =
      (o, { (c.draft d).save with current := v }) := by
    have hc : (c.draft d).save.current = c.view d := c.current_draft d
    simp [Draft.insertRows, hc, h]
  have hd : Connection.draft ⟨some t, #[], c.transaction⟩ d = c.draft d := rfl
  change execute c d = _
  unfold execute
  simp only [hs, hd, hw]
  cases o with
  | ok _ => simp [Draft.release_save]
  | error e => simp [Draft.release_revert_save]

/-- Executing either takes all gathered rows, or takes none and leaves what the connection sees as
it was. -/
theorem execute_cases (c : Connection) (d : Database) :
    (∃ t v, c.statement = some t ∧ (c.view d).insertRows t c.pending.toList = (.ok (), v) ∧
      Store.execute c d = (.ok c.pending.size,
        { c with pending := #[], transaction := some { c.draft d with current := v } }, d)) ∨
      ∃ e w, (∀ t, c.statement = some t → ¬ (c.view d).Takes t c.pending.toList) ∧
        Connection.view ⟨c.statement, #[], w⟩ d = c.view d ∧
        Store.execute c d = (.error e, { c with pending := #[], transaction := w }, d) := by
  cases hs : c.statement with
  | none =>
    refine .inr ⟨⟨.execute, .unprepared "insert"⟩, c.transaction, fun t ht => (nomatch ht), rfl, ?_⟩
    simp [Store.execute, execute, hs]
  | some t =>
    have hi : ((c.view d).insertRows t c.pending.toList).1 = .ok () ↔ _ :=
      insertRows_fst_eq_ok_iff
    cases ho : (c.view d).insertRows t c.pending.toList with
    | mk o v =>
      rw [execute_of_insertRows hs ho]
      rw [ho] at hi
      cases o with
      | ok _ => exact .inl ⟨t, v, rfl, ho, by simp [hs]⟩
      | error e =>
        refine .inr ⟨⟨.execute, .database e⟩, some (c.draft d), fun u hu ht => ?_,
          c.current_draft d, by simp [hs]⟩
        cases hi.2 (Option.some.inj hu ▸ ht)

inductive Call.Comes (c : Connection) (d : Database) :
    Call → Except StoreError Unit → Connection → Database → Prop
  | prepared {t : Table} {s : StoredTable} (h : (c.view d).target t = .ok s) :
    Comes c d (.prepare t) (.ok ()) { c with statement := some t, pending := #[] } d
  | unprepared {t : Table} (e : StoreError) (h : ∀ s, (c.view d).target t ≠ .ok s) :
    Comes c d (.prepare t) (.error e) c d
  | bound {t : Table} {r : Row} (hs : c.statement = some t) (h : r.length = t.arity) :
    Comes c d (.addRow r) (.ok ()) { c with pending := c.pending.push r } d
  | rejected {r : Row} (e : StoreError) (h : ∀ t, c.statement = some t → r.length ≠ t.arity) :
    Comes c d (.addRow r) (.error e) c d
  | cleared : Comes c d .clearBatch (.ok ()) { c with pending := #[] } d
  | executed {t : Table} {v : Database} (hs : c.statement = some t)
    (h : (c.view d).insertRows t c.pending.toList = (.ok (), v)) :
    Comes c d .execute (.ok ())
      { c with pending := #[], transaction := some { c.draft d with current := v } } d
  /-- A transaction may have begun, but the connection sees what it saw before. -/
  | refused (e : StoreError) {w : Option Draft}
    (h : ∀ t, c.statement = some t → ¬ (c.view d).Takes t c.pending.toList)
    (hw : Connection.view ⟨c.statement, #[], w⟩ d = c.view d) :
    Comes c d .execute (.error e) { c with pending := #[], transaction := w } d
  | committed : Comes c d .commit (.ok ()) { c with transaction := none } (c.view d)
  | rolledBack : Comes c d .rollback (.ok ()) { c with transaction := none } d

theorem Call.comes (call : Call) (c : Connection) (d : Database) :
    Comes c d call (call.perform c d).1 (call.perform c d).2.1 (call.perform c d).2.2 := by
  cases call with
  | prepare t =>
    change Comes c d _ (Store.prepare t c d).1 (Store.prepare t c d).2.1 (Store.prepare t c d).2.2
    cases h : (c.view d).target t with
    | ok s =>
      have hp : Store.prepare t c d =
          (.ok (), { c with statement := some t, pending := #[] }, d) := by
        simp [Store.prepare, Database.prepare, h]
      rw [hp]
      exact .prepared h
    | error e =>
      have hp : Store.prepare t c d = (.error ⟨.prepare, .database e⟩, c, d) := by
        simp [Store.prepare, Database.prepare, h]
      rw [hp]
      refine .unprepared _ fun s hs => ?_
      cases h.symm.trans hs
  | addRow r =>
    change Comes c d _ (Store.addRow r c d).1 (Store.addRow r c d).2.1 (Store.addRow r c d).2.2
    have ha : Store.addRow r c d = Database.addRow r c d := rfl
    rw [ha]
    unfold Database.addRow
    split
    · rename_i hs
      refine .rejected _ fun t ht => ?_
      cases hs.symm.trans ht
    · rename_i t hs
      split
      · exact .bound hs ‹_›
      · rename_i hl
        exact .rejected _ fun u hu => Option.some.inj (hs.symm.trans hu) ▸ hl
  | clearBatch => exact .cleared
  | execute =>
    change Comes c d _ ((Store.execute c d).1.map fun _ => ()) (Store.execute c d).2.1
      (Store.execute c d).2.2
    obtain ⟨t, v, hs, hv, he⟩ | ⟨e, w, hn, hw, he⟩ := execute_cases c d
    · rw [he]
      exact .executed hs hv
    · rw [he]
      exact .refused e hn hw
  | commit => exact .committed
  | rollback => exact .rolledBack

theorem Call.perform_eq_ok_iff (call : Call) (c : Connection) (d : Database) :
    (call.perform c d).1 = .ok () ↔ call.Allowed c d := by
  have h := call.comes c d
  generalize call.perform c d = x at h
  obtain ⟨o, c', d'⟩ := x
  dsimp only at h ⊢
  cases h with
  | prepared h => exact ⟨fun _ => ⟨_, h⟩, fun _ => rfl⟩
  | unprepared e h => exact ⟨fun ho => (nomatch ho), fun ⟨s, hs⟩ => absurd hs (h s)⟩
  | bound hs h => exact ⟨fun _ => ⟨_, hs, h⟩, fun _ => rfl⟩
  | rejected e h => exact ⟨fun ho => (nomatch ho), fun ⟨t, hs, hl⟩ => absurd hl (h t hs)⟩
  | executed hs h =>
    have ht := insertRows_fst_eq_ok_iff.1 (congrArg Prod.fst h)
    exact ⟨fun _ => ⟨_, hs, ht⟩, fun _ => rfl⟩
  | refused e h hw => exact ⟨fun ho => (nomatch ho), fun ⟨t, hs, ht⟩ => absurd ht (h t hs)⟩
  | cleared | committed | rolledBack => exact ⟨fun _ => trivial, fun _ => rfl⟩

/-- A call that fails changes nothing, except that executing empties the batch. -/
theorem Call.perform_of_error {call : Call} {e : StoreError} (h : (call.perform c d).1 = .error e)
    (hx : call ≠ .execute) : (call.perform c d).2 = (c, d) := by
  have hc := call.comes c d
  generalize call.perform c d = x at h hc
  obtain ⟨o, c', d'⟩ := x
  dsimp only at h hc ⊢
  subst h
  cases hc with
  | unprepared e h => rfl
  | rejected e h => rfl
  | refused e h hw => exact absurd rfl hx

end Calls

/-- How a connection and its database stand, by what the answers tell. -/
structure Slate.Tells (origin : Database) (s : Slate) (c : Connection) (d : Database) : Prop where
  statement : c.statement = s.statement
  pending : c.pending.toList = s.waiting
  database : Grown origin (batchesOf .kept s.deeds) d
  view : Grown origin (batchesOf .kept s.deeds ++ batchesOf .undecided s.deeds) (c.view d)

namespace Slate.Tells

variable {origin d : Database} {s : Slate} {c : Connection}

theorem fresh (d : Database) : Tells d {} {} d where
  statement := rfl
  pending := rfl
  database := .refl d
  view := .refl d

theorem perform (h : s.Tells origin c d) (call : Call) :
    (s.mark (call, (call.perform c d).1)).Tells origin (call.perform c d).2.1
      (call.perform c d).2.2 := by
  have hc := call.comes c d
  generalize call.perform c d = x at hc
  obtain ⟨o, c', d'⟩ := x
  dsimp only at hc ⊢
  cases hc with
  | prepared => exact ⟨rfl, rfl, h.database, h.view⟩
  | unprepared | rejected => exact h
  | bound => exact ⟨h.statement, by simp [mark, h.pending], h.database, h.view⟩
  | cleared => exact ⟨h.statement, rfl, h.database, h.view⟩
  | @executed t v hs hv =>
    have hdeeds : (s.mark (.execute, .ok ())).deeds = s.deeds ++ [.batch t s.waiting] := by
      simp [mark, ← h.statement, hs]
    refine ⟨h.statement, rfl, ?_, ?_⟩
    · rw [hdeeds]
      simpa [batchesOf_append, fate, batchesOf] using h.database
    · have hg := h.view.insertRows hv
      rw [h.pending] at hg
      rw [hdeeds]
      simpa [batchesOf_append, fate, batchesOf] using hg
  | refused e hx hw => exact ⟨h.statement, rfl, h.database, hw ▸ h.view⟩
  | committed =>
    -- what the connection saw is now what the database holds
    refine ⟨h.statement, h.pending, ?_, ?_⟩
    · simpa [mark, batchesOf_append, fate, batchesOf] using h.view
    · simpa [mark, batchesOf_append, fate, batchesOf] using h.view
  | rolledBack =>
    refine ⟨h.statement, h.pending, ?_, ?_⟩
    · simpa [mark, batchesOf_append, fate, batchesOf] using h.database
    · simpa [mark, batchesOf_append, fate, batchesOf] using h.database

theorem calls {x : Usage} (h : x.slate.Tells origin x.connection x.database)
    (calls : List Call) : (calls.foldl Usage.call x).slate.Tells origin
      (calls.foldl Usage.call x).connection (calls.foldl Usage.call x).database := by
  induction calls generalizing x with
  | nil => exact h
  | cons call rest ih =>
    refine ih ?_
    have hs : (x.call call).slate =
        x.slate.mark (call, (call.perform x.connection x.database).1) := by
      simp [Usage.slate, Usage.call]
    rw [hs]
    exact h.perform call

end Slate.Tells

/-- A connection is a transactional store whose batches are whole. After any calls the database
holds the batches that succeeded and that a commit followed before a rollback did, each whole and
in binding order, and the connection sees besides them the batches of the open transaction;
closing it discards those. A call succeeds exactly when it is allowed and otherwise leaves the
rows, the statement and the transaction as they were. Only executing always empties the batch.
Without a transaction there is nothing to commit or to roll back. -/
theorem use_keeps_batches (d : Database) (calls : List Call) :
    let x := use d calls
    x.slate.Tells d x.connection x.database ∧
      Store.close x.connection x.database = (.ok (), x.database) ∧
      (∀ call : Call, (call.perform x.connection x.database).1 = .ok () ↔
        call.Allowed x.connection x.database) ∧
      (∀ call : Call, ∀ e, (call.perform x.connection x.database).1 = .error e →
        call ≠ .execute → (call.perform x.connection x.database).2 = (x.connection, x.database)) ∧
      (∃ c, c.pending = #[] ∧ c.statement = x.connection.statement ∧
        (Store.execute x.connection x.database = (.ok x.connection.pending.size, c, x.database) ∨
          ∃ e, Store.execute x.connection x.database = (.error e, c, x.database) ∧
            c.view x.database = x.connection.view x.database)) ∧
      (x.connection.transaction = none →
        Store.commit x.connection x.database = (.ok (), x.connection, x.database) ∧
          Store.rollback x.connection x.database = (.ok (), x.connection, x.database)) := by
  have hx : (use d calls).slate.Tells d (use d calls).connection (use d calls).database :=
    Slate.Tells.calls (.fresh d) calls
  generalize use d calls = x at hx
  obtain ⟨answers, c, d'⟩ := x
  refine ⟨hx, rfl, fun call => call.perform_eq_ok_iff c d', fun call e => Call.perform_of_error,
    ?_, fun ht => ?_⟩
  · obtain ⟨t, v, -, -, he⟩ | ⟨e, w, -, hw, he⟩ := execute_cases c d'
    · exact ⟨{ c with pending := #[], transaction := _ }, rfl, rfl, .inl he⟩
    · exact ⟨{ c with pending := #[], transaction := w }, rfl, rfl, .inr ⟨e, he, hw⟩⟩
  · obtain ⟨s, rows, w⟩ := c
    obtain rfl : w = none := ht
    exact ⟨rfl, rfl⟩

/-- The second batch breaks a rule at its second row. It leaves nothing behind, and the batches
around it are committed together. -/
example : ((use .fresh [.prepare .wayNodes,
    .addRow [.integer 2, .integer 1, .integer 0], .execute,
    .addRow [.integer 2, .integer 4, .integer 1], .addRow [.integer 2, .null, .integer 2], .execute,
    .addRow [.integer 2, .integer 3, .integer 1], .execute, .commit]).database.rows?
      "way_nodes") = some #[[.integer 2, .integer 1, .integer 0],
        [.integer 2, .integer 3, .integer 1]] := by decide +kernel

end Database
end MapLoader
