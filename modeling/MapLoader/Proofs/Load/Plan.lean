import MapLoader.Proofs.Load.Exactness

/-! The plan of a load. As long as no call is struck, which batches are written, and when, is
decided by the elements and the size of a full buffer alone; so a load without faults leaves in
every table what the plan says. -/

namespace MapLoader

/-- What waits, and the batches written so far. -/
structure Plan where
  buffers : Buffers := {}
  batches : List Batch := []

namespace Plan

def flush (t : Table) (p : Plan) : Plan :=
  if p.buffers.size t = 0 then p else ⟨p.buffers.clear t, p.batches ++ [p.buffers.batch t]⟩

def flushIfFull (row : Nat) (t : Table) (p : Plan) : Plan :=
  if row ≤ p.buffers.size t then p.flush t else p

def addUser (row : Nat) (u : User) (p : Plan) : Plan :=
  if p.buffers.users.contains u.id then p
  else flushIfFull row .users { p with buffers := p.buffers.addUser u }

/-- The plan with an element and its author in their buffers. -/
def stage (row : Nat) (e : Entity) (p : Plan) : Plan :=
  let p := p.addUser row e.user
  { p with buffers := p.buffers.addElement e }

def add (row : Nat) (p : Plan) (e : Entity) : Plan :=
  e.tables.foldl (fun p t => p.flushIfFull row t) (p.stage row e)

/-- The plan for a stream, before the buffers are emptied at the end. -/
def ofEntities (row : Nat) (es : List Entity) : Plan := es.foldl (add row) {}

def finish (p : Plan) : Plan := Table.all.foldl (fun p t => p.flush t) p

/-- The rows written to a table. -/
def rows (p : Plan) (t : Table) : List Row :=
  p.batches.flatMap fun x => if x.table = t then x.rows else []

variable {p : Plan}

/-- Flushing moves the rows of one buffer to its table. -/
theorem rows_flush (p : Plan) (t u : Table) :
    (p.flush t).rows u = p.rows u ++ if t = u then (p.buffers.batch t).rows else [] := by
  unfold flush
  split
  · rename_i h
    simp [Buffers.rows_batch_of_size h]
  · simp [rows]

theorem size_flush (p : Plan) (t u : Table) :
    (p.flush t).buffers.size u = if u = t then 0 else p.buffers.size u := by
  unfold flush
  split
  · rename_i h
    by_cases hu : u = t <;> simp [hu, h]
  · exact Buffers.size_clear p.buffers t u

theorem batch_flush (p : Plan) {t u : Table} (h : u ≠ t) :
    (p.flush t).buffers.batch u = p.buffers.batch u := by
  unfold flush
  split
  · rfl
  · exact p.buffers.batch_clear h

theorem size_flushes (p : Plan) (ts : List Table) (u : Table) :
    (ts.foldl (fun p t => p.flush t) p).buffers.size u =
      if u ∈ ts then 0 else p.buffers.size u := by
  induction ts generalizing p with
  | nil => rfl
  | cons t ts ih =>
    rw [List.foldl_cons, ih, size_flush]
    by_cases hu : u = t <;> simp [hu]

/-- The rows that are written and those that wait stay the same in all. -/
theorem rows_append_flush (p : Plan) (t u : Table) :
    (p.flush t).rows u ++ ((p.flush t).buffers.batch u).rows =
      p.rows u ++ (p.buffers.batch u).rows := by
  rw [rows_flush]
  by_cases hu : u = t
  · have hz : (p.flush t).buffers.size t = 0 := by rw [size_flush, if_pos rfl]
    rw [hu, if_pos rfl, Buffers.rows_batch_of_size hz, List.append_nil]
  · rw [if_neg (Ne.symm hu), batch_flush p hu, List.append_nil]

/-- In the end what waited for a table follows what was written to it. -/
theorem rows_finish (p : Plan) (u : Table) :
    p.finish.rows u = p.rows u ++ (p.buffers.batch u).rows := by
  have hall (ts : List Table) (p : Plan) :
      (ts.foldl (fun p t => p.flush t) p).rows u ++
          ((ts.foldl (fun p t => p.flush t) p).buffers.batch u).rows =
        p.rows u ++ (p.buffers.batch u).rows := by
    induction ts generalizing p with
    | nil => rfl
    | cons t ts ih => exact (ih (p.flush t)).trans (rows_append_flush p t u)
  have hz : p.finish.buffers.size u = 0 := by
    rw [finish, size_flushes, if_pos (Table.mem_all u)]
  have hf := hall Table.all p
  rw [← finish, Buffers.rows_batch_of_size hz, List.append_nil] at hf
  exact hf

end Plan

namespace Accumulator

/-- Unless a call was struck, the accumulator has done what the plan says, and no row that was
executed is lost. -/
def OnPlan (row : Nat) (p : Plan) (a : FaultyAccumulator) : Prop :=
  a.session.store.strikes = 0 → a.thresholds.row = row ∧ a.buffers = p.buffers ∧
    ∃ A, a.session.Keeps [.executeKeep] A ∧ A.Lossless ∧ A.batches = p.batches.map Batch.entry

namespace OnPlan

variable {row : Nat} {p q : Plan} {a b : FaultyAccumulator}

/-- After a strike nothing is said. -/
theorem of_struck (hs : a.session.store.strikes ≠ 0) (h : Attended Faulty.monitor True a b) :
    OnPlan row q b := fun hz => absurd (Nat.le_zero.1 (hz ▸ h.always.1)) hs

theorem buffer (h : OnPlan row p a) (f : Buffers → Buffers) :
    OnPlan row { p with buffers := f p.buffers } { a with buffers := f a.buffers } := by
  intro hs
  obtain ⟨hrow, hb, hA⟩ := h hs
  exact ⟨hrow, congrArg f hb, hA⟩

theorem tell (h : OnPlan row p a) (n : Notice) : OnPlan row p (a.tell n) := by
  intro hs
  obtain ⟨hrow, hb, A, hA, hl⟩ := h hs
  exact ⟨hrow, hb, A, hA.tell n, hl⟩

theorem flush (h : OnPlan row p a) (t : Table) : OnPlan row (p.flush t) (a.flush t).2 := by
  intro hs
  have hle := (attended_flush Faulty.monitor t a).always.1
  obtain ⟨hrow, hb, A, hA, hl, hx⟩ := h (Nat.le_zero.1 (hs ▸ hle))
  have hth : (a.flush t).2.thresholds.row = row := (thresholds_flush t a).symm ▸ hrow
  by_cases ht : a.buffered t = 0
  · rw [Plan.flush, if_pos (hb ▸ ht), flush_empty ht]
    exact ⟨hrow, hb, A, hA, hl, hx⟩
  · obtain ⟨⟨B, hB, he⟩, -⟩ := keeps_flush hA (by simp) ht
    obtain ⟨ho, hlB⟩ := he.calm (by rw [hs]; exact Nat.not_lt_zero _) hl
    have hbuf := (flush_frame t a ht).1
    rw [if_neg ho] at hbuf
    rw [Plan.flush, if_neg (hb ▸ ht)]
    refine ⟨hth, by rw [hbuf, hb], B, hB, hlB, ?_⟩
    rw [he.batches_eq, if_pos ho, hx, hb, List.map_append]
    rfl

theorem flushes (h : OnPlan row p a) (ts : List Table) :
    OnPlan row (ts.foldl (fun p t => p.flush t) p) (a.flushes ts) := by
  induction ts generalizing p a with
  | nil => exact h
  | cons t ts ih => exact ih (h.flush t)

theorem flushIfFull (h : OnPlan row p a) (t : Table) :
    OnPlan row (p.flushIfFull row t) (a.flushIfFull t) := by
  by_cases hs : a.session.store.strikes = 0
  · obtain ⟨hrow, hb, -⟩ := h hs
    unfold Plan.flushIfFull Accumulator.flushIfFull
    rw [hrow, buffered, hb]
    split
    · exact h.flush t
    · exact h
  · rw [flushIfFull_eq]
    exact of_struck hs (attended_flushes _ _ _)

theorem addUser (h : OnPlan row p a) (u : User) : OnPlan row (p.addUser row u) (a.addUser u) := by
  by_cases hs : a.session.store.strikes = 0
  · obtain ⟨-, hb, -⟩ := h hs
    unfold Plan.addUser Accumulator.addUser
    by_cases hc : p.buffers.users.contains u.id
    · rw [if_pos hc, if_pos (hb ▸ hc)]
      exact h
    · rw [if_neg hc, if_neg (hb ▸ hc)]
      exact (h.buffer (·.addUser u)).flushIfFull .users
  · exact of_struck hs (attended_addUser _ _ _)

theorem add (h : OnPlan row p a) (e : Entity) : OnPlan row (p.add row e) (a.add e) := by
  have hstage : OnPlan row (p.stage row e) (a.staged e) :=
    (h.addUser e.user).buffer (·.addElement e)
  rw [add_eq_foldl, Plan.add]
  generalize e.tables = ts
  generalize p.stage row e = q at hstage ⊢
  generalize a.staged e = b at hstage ⊢
  induction ts generalizing q b with
  | nil => exact hstage
  | cons t ts ih => exact ih _ _ (hstage.flushIfFull t)

theorem dispatchAll (h : OnPlan row p a) (filter : ElementFilter) (es : List Entity) :
    OnPlan row ((filter.admitted es).foldl (Plan.add row) p) (es.foldl (dispatch filter) a) := by
  induction es generalizing p a with
  | nil => exact h
  | cons e es ih =>
    by_cases he : filter.includes e.kind
    · have hd : OnPlan row (p.add row e) (dispatch filter a e) := by
        unfold dispatch
        rw [if_pos he]
        exact OnPlan.add (a := { a with report := a.report.recordProcessed e.kind }) h e
      simpa [ElementFilter.admitted, he] using ih hd
    · have hd : OnPlan row p (dispatch filter a e) := by
        unfold dispatch
        rw [if_neg he]
        exact h
      simpa [ElementFilter.admitted, he] using ih hd

end OnPlan

theorem onPlan_drained (options : LoadOptions) (entities : List Entity) :
    OnPlan options.thresholds.row
      (Plan.ofEntities options.thresholds.row (options.filter.admitted entities))
      (drained options { inner := {} } entities) := by
  have hnew : OnPlan options.thresholds.row {}
      (fresh [] options.thresholds options.counterReset) := fun _ =>
    ⟨rfl, rfl, _, (exact_new [] nofun options.thresholds options.counterReset).keeps,
      fun _ => rfl, rfl⟩
  exact (hnew.dispatchAll options.filter entities).tell .drained

end Accumulator

/-- What the plan says of the batches and the rows of a load without faults. -/
private theorem ingest_planned_calm (options : LoadOptions) (entities : List Entity)
    (h : (ingest options ({ inner := {} } : Faulty Memory) entities).2.store.strikes = 0) :
    let s := (ingest options ({ inner := {} } : Faulty Memory) entities).2
    let p := (Plan.ofEntities options.thresholds.row (options.filter.admitted entities)).finish
    s.store.inner.batches = p.batches.map Batch.entry ∧
      ∀ t, (s.store.inner.committed.get t).toList = p.rows t := by
  have hd := Accumulator.onPlan_drained options entities
  rw [ingest_eq] at h ⊢
  generalize Accumulator.drained options ({ inner := {} } : Faulty Memory) entities = a at hd h ⊢
  dsimp only at h ⊢
  have hall := hd.flushes Table.all
  rw [← Accumulator.flushAll_eq] at hall
  obtain ⟨-, -, A, hA, hl, hx⟩ := hall (Accumulator.strikes_flushAll h)
  obtain ⟨-, B, hB, -, hc, hb⟩ :=
    Accumulator.finish_calm hA (by rw [h]; exact Nat.not_lt_zero _)
  refine ⟨hB.batches_eq.trans (hb.trans hx), fun t => ?_⟩
  rw [hB.committed_eq, hc, Account.held, ← hl t, Account.executed_eq, hx, List.flatMap_map]
  rfl

section

variable (options : LoadOptions) (faults : List Fault) (entities : List Entity)
  (h : (ingest options ({ faults, inner := {} } : Faulty Memory) entities).2.store.strikes = 0)
include h

private theorem ingest_planned_all :
    let s := (ingest options ({ faults, inner := {} } : Faulty Memory) entities).2
    let p := (Plan.ofEntities options.thresholds.row (options.filter.admitted entities)).finish
    s.store.inner.batches = p.batches.map Batch.entry ∧
      ∀ t, (s.store.inner.committed.get t).toList = p.rows t := by
  have hcalm := @Faulty.ingest_calm Memory _ _ options entities { faults, inner := {} } h
  have hc : Faulty.calm { faults, inner := ({} : Memory) } = { inner := {} } := rfl
  have hp := ingest_planned_calm options entities
  rw [hc] at hcalm
  rw [hcalm] at hp
  generalize ingest options ({ faults, inner := {} } : Faulty Memory) entities = x at h hp ⊢
  exact hp h

/-- Whatever faults are laid, a load into an empty store that is not struck by any of them executes
the batches that were planned. -/
theorem ingest_batches_planned :
    (ingest options ({ faults, inner := {} } : Faulty Memory) entities).2.store.inner.batches =
      (Plan.ofEntities options.thresholds.row
        (options.filter.admitted entities)).finish.batches.map Batch.entry :=
  (ingest_planned_all options faults entities h).1

/-- Such a load leaves in every table what was planned. -/
theorem ingest_planned (t : Table) :
    ((ingest options ({ faults, inner := {} } : Faulty Memory) entities).2.store.inner.committed.get
        t).toList =
      (Plan.ofEntities options.thresholds.row
        (options.filter.admitted entities)).finish.rows t :=
  (ingest_planned_all options faults entities h).2 t

end

end MapLoader
