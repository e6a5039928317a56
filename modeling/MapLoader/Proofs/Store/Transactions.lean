import MapLoader.Store.Memory

/-! The transactions that a store in memory went through, read off its journal. One begins with
every connection that is opened, and gathers the batches executed until the next one begins. -/

namespace MapLoader

def rowsFor (t : Table) (batches : List (Table × List Row)) : List Row :=
  batches.flatMap fun b => if b.1 = t then b.2 else []

@[simp] theorem rowsFor_nil (t : Table) : rowsFor t [] = [] := rfl

@[simp] theorem rowsFor_append (t : Table) (xs ys : List (Table × List Row)) :
    rowsFor t (xs ++ ys) = rowsFor t xs ++ rowsFor t ys := List.flatMap_append

@[simp] theorem rowsFor_singleton (t u : Table) (rows : List Row) :
    rowsFor t [(u, rows)] = if u = t then rows else [] := by simp [rowsFor]

theorem rowsFor_eq_flatMap (t : Table) (batches : List (Table × List Row)) :
    rowsFor t batches = (batches.filter fun b => b.1 = t).flatMap Prod.snd := by
  unfold rowsFor
  induction batches with
  | nil => rfl
  | cons b batches ih => by_cases hb : b.1 = t <;> simp [hb, ih]

structure Transaction where
  batches : List (Table × List Row) := []
  committed : Bool := false
  deriving DecidableEq, Inhabited, Repr

namespace Transaction

def rows (t : Table) (x : Transaction) : List Row :=
  x.batches.flatMap fun b => if b.1 = t then b.2 else []

def post (t : Table) (rows : List Row) (x : Transaction) : Transaction :=
  { x with batches := x.batches ++ [(t, rows)] }

def settle (x : Transaction) : Transaction := { x with committed := true }

/-- All batches are for one table. -/
def Uniform (x : Transaction) : Prop := ∃ t, ∀ b ∈ x.batches, b.1 = t

@[simp] theorem rows_empty (t : Table) : rows t {} = [] := rfl

@[simp] theorem rows_post (s t : Table) (rs : List Row) (x : Transaction) :
    (x.post s rs).rows t = x.rows t ++ if s = t then rs else [] := by
  simp [rows, post]

@[simp] theorem rows_settle (t : Table) (x : Transaction) : x.settle.rows t = x.rows t := rfl

@[simp] theorem committed_post (t : Table) (rs : List Row) (x : Transaction) :
    (x.post t rs).committed = x.committed := rfl

@[simp] theorem committed_settle (x : Transaction) : x.settle.committed = true := rfl

@[simp] theorem batches_settle (x : Transaction) : x.settle.batches = x.batches := rfl

/-- A transaction on one table holds no rows of another. -/
theorem rows_eq_nil {t u : Table} {x : Transaction} (h : ∀ b ∈ x.batches, b.1 = t) (hu : u ≠ t) :
    x.rows u = [] := by
  refine List.flatMap_eq_nil_iff.2 fun b hb => ?_
  have hne : b.1 ≠ u := h b hb ▸ hu.symm
  exact if_neg hne

end Transaction

namespace Memory

/-- The transactions after an event, the latest first. -/
def Event.enter : Event → List Transaction → List Transaction
  | .opened, past => {} :: past
  | .executed t rows, past => (past.headD {}).post t rows.toList :: past.tail
  | .committed, past => past.modifyHead Transaction.settle
  | .prepared _, past => past
  | .rolledBack, past => past
  | .closed, past => past

def history (m : Memory) : List Transaction :=
  m.events.toList.foldl (fun past e => e.enter past) []

def transactions (m : Memory) : List Transaction := m.history.reverse

def executed (m : Memory) (t : Table) : List Row :=
  m.events.toList.flatMap fun
    | .executed s rows => if s = t then rows.toList else []
    | _ => []

@[simp] theorem history_empty : ({} : Memory).history = [] := rfl

@[simp] theorem events_note (m : Memory) (e : Event) : (m.note e).events = m.events.push e := rfl

@[simp] theorem history_note (m : Memory) (e : Event) : (m.note e).history = e.enter m.history := by
  simp [history]

theorem history_of_events {m m' : Memory} (h : m'.events = m.events) : m'.history = m.history := by
  rw [history, h, history]

def Event.batch? : Event → Option (Table × List Row)
  | .executed t rows => some (t, rows.toList)
  | .opened | .prepared _ | .committed | .rolledBack | .closed => none

def batches (m : Memory) : List (Table × List Row) := m.events.toList.filterMap Event.batch?

def batchesOn (m : Memory) (t : Table) : List (List Row) :=
  (m.batches.filter fun b => b.1 = t).map Prod.snd

theorem executions_eq (m : Memory) (t : Table) :
    m.executions t = (m.batchesOn t).map List.length := by
  unfold executions batchesOn batches
  induction m.events.toList with
  | nil => rfl
  | cons e es ih =>
    cases e with
    | executed s rows =>
      by_cases h : s = t <;> simpa [List.filterMap_cons, Event.batch?, h] using ih
    | opened | prepared | committed | rolledBack | closed =>
      simpa [List.filterMap_cons, Event.batch?] using ih

theorem executed_eq (m : Memory) (t : Table) : m.executed t = rowsFor t m.batches := by
  unfold executed batches
  induction m.events.toList with
  | nil => rfl
  | cons e es ih => cases e <;> simpa [List.filterMap_cons, Event.batch?, rowsFor] using ih

theorem flatten_batchesOn (m : Memory) (t : Table) : (m.batchesOn t).flatten = m.executed t := by
  rw [executed_eq, rowsFor_eq_flatMap, List.flatMap_def, batchesOn]

private theorem flatMap_enter (e : Event) (past : List Transaction) :
    (e.enter past).reverse.flatMap Transaction.batches =
      past.reverse.flatMap Transaction.batches ++ e.batch?.toList := by
  cases e with
  | executed s rows => cases past <;> simp [Event.enter, Event.batch?, Transaction.post]
  | committed => cases past <;> simp [Event.enter, Event.batch?]
  | opened | prepared | rolledBack | closed => simp [Event.enter, Event.batch?]

/-- Every executed batch belongs to a transaction. -/
theorem flatMap_batches (m : Memory) :
    m.transactions.flatMap Transaction.batches = m.batches := by
  unfold transactions history batches
  generalize m.events.toList = es
  have h (past : List Transaction) :
      (es.foldl (fun past e => e.enter past) past).reverse.flatMap Transaction.batches =
        past.reverse.flatMap Transaction.batches ++ es.filterMap Event.batch? := by
    induction es generalizing past with
    | nil => simp
    | cons e es ih =>
      rw [List.foldl_cons, ih, flatMap_enter]
      cases he : e.batch? <;> simp [he]
  simpa using h []

/-- Every executed row belongs to a transaction. -/
theorem flatMap_transactions (m : Memory) (t : Table) :
    m.transactions.flatMap (Transaction.rows t) = m.executed t := by
  rw [executed_eq, ← flatMap_batches]
  exact List.flatMap_assoc.symm

/-- None of the switches is on that let calls fail. -/
def Calm (m : Memory) : Prop :=
  m.failsOpen = false ∧ m.failsCommit = false ∧ m.failsExecute = []

theorem connect_calm {m : Memory} (h : m.Calm) : Store.connect m = (.ok {}, { m.note .opened with
    openConnections := m.openConnections + 1
    maxOpenConnections := max m.maxOpenConnections (m.openConnections + 1) }) := by
  simp [Store.connect, connect, h.1, note]

theorem execute_calm {m : Memory} (h : m.Calm) {c : Connection} {t : Table}
    (hc : c.statement = some t) : Store.execute c m = (.ok c.pending.size,
      { c with pending := #[], uncommitted := c.uncommitted ++ c.pending.map fun r => (t, r) },
      m.note (.executed t c.pending)) := by
  simp [Store.execute, execute, hc, h.2.2]

theorem commit_calm {m : Memory} (h : m.Calm) (c : Connection) :
    Store.commit c m = (.ok (), { c with uncommitted := #[] }, { m.note .committed with
      committed := c.uncommitted.foldl insertRow m.committed }) := by
  simp [Store.commit, commit, h.2.1, note]

theorem get_foldl_insertRow (rows : List (Table × Row)) (tables : PerTable (Array Row))
    (t : Table) : ((rows.foldl insertRow tables).get t).toList =
      (tables.get t).toList ++ rows.flatMap fun r => if r.1 = t then [r.2] else [] := by
  induction rows generalizing tables with
  | nil => simp
  | cons r rows ih =>
    rw [List.foldl_cons, ih]
    by_cases h : r.1 = t
    · simp [insertRow, h]
    · simp [insertRow, h, Ne.symm h]

end Memory
end MapLoader
