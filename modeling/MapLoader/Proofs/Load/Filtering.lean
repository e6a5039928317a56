import Mathlib.Logic.Function.Conjugate
import MapLoader.Proofs.Load.Lockstep
import MapLoader.Proofs.Store.Transcript

/-! Filtering commutes with loading. The report counts processed and skipped elements, but no
operation of the accumulator looks at these counts, so an element that is left out shows in the
number of skipped elements and nowhere else. -/

namespace MapLoader

namespace Report

def recount (processed skipped : PerElement Nat) (r : Report) : Report :=
  { r with processed, skipped }

def unskipped (r : Report) : Report := { r with skipped := .const 0 }

end Report

namespace Accumulator

variable {σ κ : Type}

def recount (processed skipped : PerElement Nat) (a : Accumulator σ κ) : Accumulator σ κ :=
  { a with report := a.report.recount processed skipped }

def unskipped (a : Accumulator σ κ) : Accumulator σ κ :=
  { a with report := a.report.unskipped }

theorem unskipped_eq_recount (a : Accumulator σ κ) :
    a.unskipped = a.recount a.report.processed (.const 0) := rfl

theorem session_unskipped (a : Accumulator σ κ) : a.unskipped.session = a.session := rfl

theorem recount_self (a : Accumulator σ κ) :
    a.recount a.report.processed a.report.skipped = a := rfl

variable [Store σ κ] (p s : PerElement Nat) (a : Accumulator σ κ)

theorem begin_recount (t : Table) :
    (a.recount p s).begin t = (a.begin t).map id (recount p s) := by
  unfold begin
  have hs : (a.recount p s).session = a.session := rfl
  rw [hs]
  rcases a.session.beginBatch t with ⟨e | start, u⟩
  · cases e <;> rfl
  · rfl

theorem write_recount (t : Table) :
    (a.recount p s).write t = (a.write t).map id (recount p s) := by
  unfold write
  rw [begin_recount]
  rcases a.begin t with ⟨e | _, b⟩ <;> rfl

theorem commit_recount (t : Table) (rows : Nat) :
    (a.recount p s).commit t rows = (a.commit t rows).map id (recount p s) := by
  unfold commit
  have hs : (a.recount p s).session = a.session := rfl
  rw [hs]
  rcases a.session.endBatch true with ⟨e | _, u⟩ <;> rfl

theorem flush_recount (t : Table) :
    (a.recount p s).flush t = (a.flush t).map id (recount p s) := by
  have hsize : (a.recount p s).buffered t = a.buffered t := rfl
  by_cases ht : a.buffered t = 0
  · rw [flush_empty ht, flush_empty (hsize.trans ht)]
    rfl
  have hw := write_recount p s a t
  rcases h : a.write t with ⟨e | rows, b⟩ <;> rw [h] at hw
  · rw [flush_missed ht h, flush_missed (hsize ▸ ht) hw, hsize]
    rfl
  · have hl : (b.recount p s).landed t (a.buffered t) rows =
        (b.landed t (a.buffered t) rows).recount p s := rfl
    rw [flush_landed ht h, flush_landed (hsize ▸ ht) hw, hsize, hl]
    generalize b.landed t (a.buffered t) rows = c
    by_cases hd : c.CommitDue t
    · have hd' : (c.recount p s).CommitDue t := hd
      rw [if_pos hd, if_pos hd', commit_recount]
    · have hd' : ¬ (c.recount p s).CommitDue t := hd
      rw [if_neg hd, if_neg hd']
      rfl

/-- An operation that neither looks at the counts of elements nor changes them. -/
def Blind (f : Accumulator σ κ → Accumulator σ κ) : Prop :=
  ∀ p s, Function.Commute f (recount p s)

namespace Blind

omit [Store σ κ]
variable {f : Accumulator σ κ → Accumulator σ κ}

/-- With any other counts it would have done the same, so it has left them alone. -/
theorem elements (hf : Blind f) (a : Accumulator σ κ) :
    (f a).report.processed = a.report.processed ∧ (f a).report.skipped = a.report.skipped := by
  have h := hf a.report.processed a.report.skipped a
  rw [recount_self] at h
  generalize f a = b at h
  exact ⟨congrArg (·.report.processed) h, congrArg (·.report.skipped) h⟩

theorem unskipped (hf : Blind f) (a : Accumulator σ κ) : f a.unskipped = (f a).unskipped := by
  rw [unskipped_eq_recount, unskipped_eq_recount, hf _ _ a, (hf.elements a).1]

theorem foldl {α : Type} {g : Accumulator σ κ → α → Accumulator σ κ} (hg : ∀ x, Blind (g · x))
    (xs : List α) : Blind fun a => xs.foldl g a :=
  fun p s _ => List.foldl_hom (recount p s) fun b x => hg x p s b

end Blind

theorem blind_flush (t : Table) : Blind fun a : Accumulator σ κ => (a.flush t).2 :=
  fun p s a => congrArg Prod.snd (flush_recount p s a t)

theorem blind_flushAll : Blind (flushAll (σ := σ)) := Blind.foldl blind_flush Table.all

theorem blind_flushIfFull (t : Table) : Blind (flushIfFull (σ := σ) t) := by
  intro p s a
  by_cases ht : a.thresholds.row ≤ a.buffered t
  · have ht' : (a.recount p s).thresholds.row ≤ (a.recount p s).buffered t := ht
    unfold flushIfFull
    rw [if_pos ht, if_pos ht']
    exact blind_flush t p s a
  · have ht' : ¬ (a.recount p s).thresholds.row ≤ (a.recount p s).buffered t := ht
    unfold flushIfFull
    rw [if_neg ht, if_neg ht']

theorem blind_addUser (u : User) : Blind (addUser (σ := σ) u) := by
  intro p s a
  by_cases hu : a.buffers.users.contains u.id = true
  · have hu' : (a.recount p s).buffers.users.contains u.id = true := hu
    unfold addUser
    rw [if_pos hu, if_pos hu']
  · have hu' : ¬ (a.recount p s).buffers.users.contains u.id = true := hu
    unfold addUser
    rw [if_neg hu, if_neg hu']
    exact blind_flushIfFull .users p s { a with buffers := a.buffers.addUser u }

theorem blind_add (e : Entity) : Blind (add (σ := σ) e) := by
  intro p s a
  have hs : (a.recount p s).staged e = (a.staged e).recount p s :=
    congrArg (element e) (blind_addUser e.user p s a)
  have hflushes := Blind.foldl blind_flushIfFull e.tables p s (a.staged e)
  dsimp only at hflushes
  rw [add_eq_foldl, add_eq_foldl, hs, hflushes]

variable {a : Accumulator σ κ}

theorem dispatch_included {f : ElementFilter} {e : Entity} (he : f.includes e.kind = true) :
    a.dispatch f e = { a with report := a.report.recordProcessed e.kind }.add e := if_pos he

theorem dispatch_excluded {f : ElementFilter} {e : Entity} (he : ¬ f.includes e.kind = true) :
    a.dispatch f e = { a with report := a.report.recordSkipped e.kind } := if_neg he

/-- An element that passes is dispatched as it would be without a filter; one that does not is
as if it had not come, but for the number of skipped elements. -/
theorem foldl_dispatch_unskipped (f : ElementFilter) (es : List Entity) :
    (f.admitted es).foldl (dispatch .all) a.unskipped =
      (es.foldl (dispatch f) a).unskipped := by
  induction es generalizing a with
  | nil => rfl
  | cons e es ih =>
    rw [List.foldl_cons, ← ih]
    by_cases he : f.includes e.kind = true
    · have hcons : f.admitted (e :: es) = e :: f.admitted es := by
        simp [ElementFilter.admitted, he]
      have hd := (blind_add e).unskipped { a with report := a.report.recordProcessed e.kind }
      rw [hcons, List.foldl_cons, dispatch_included he, dispatch_included rfl, ← hd]
      rfl
    · have hcons : f.admitted (e :: es) = f.admitted es := by
        simp [ElementFilter.admitted, he]
      rw [hcons, dispatch_excluded he]
      rfl

theorem counts_foldl_dispatch (f : ElementFilter) (es : List Entity) (k : ElementKind) :
    let r := (es.foldl (dispatch f) a).report
    let n := es.countP fun e => e.kind = k
    r.processed.get k = a.report.processed.get k + (if f.includes k then n else 0) ∧
      r.skipped.get k = a.report.skipped.get k + (if f.includes k then 0 else n) := by
  induction es generalizing a with
  | nil => simp
  | cons e es ih =>
    dsimp only at ih ⊢
    rw [List.foldl_cons, List.countP_cons, (ih (a := a.dispatch f e)).1,
      (ih (a := a.dispatch f e)).2]
    by_cases he : f.includes e.kind = true
    · have hk := (blind_add e).elements
        { a with report := a.report.recordProcessed e.kind }
      rw [dispatch_included he, hk.1, hk.2]
      by_cases hek : e.kind = k
      · subst hek
        simp [Report.recordProcessed, he]
        omega
      · simp [Report.recordProcessed, hek, Ne.symm hek]
    · rw [dispatch_excluded he]
      by_cases hek : e.kind = k
      · subst hek
        simp [Report.recordSkipped, he]
        omega
      · simp [Report.recordSkipped, hek, Ne.symm hek]

/-- Finishing does not look at the skipped elements either. It tells the report in the end,
whether or not the last commit succeeds. -/
theorem finish_unskipped : ∃ (report : Report) (log : Array Notice),
    a.finish.2.session.log = log.push (.finished report) ∧
    (∀ r, a.finish.1 = .ok r → r = report) ∧
    report.processed = a.report.processed ∧ report.skipped = a.report.skipped ∧
    a.unskipped.finish.1 = a.finish.1.map Report.unskipped ∧
    a.unskipped.finish.2.session =
      { a.finish.2.session with log := log.push (.finished report.unskipped) } := by
  have hall := blind_flushAll.unskipped a
  obtain ⟨hprocessed, hskipped⟩ := blind_flushAll.elements a
  have hsession : a.unskipped.flushAll.session = a.flushAll.session := by
    rw [hall, session_unskipped]
  rcases h : a.flushAll.session.endBatch true with ⟨e | _, u⟩
  · have h' := h
    rw [← hsession] at h'
    obtain ⟨t, ht, hfin⟩ := finish_error h
    obtain ⟨t', ht', hfin'⟩ := finish_error h'
    rw [hsession, ht] at ht'
    cases ht'
    rw [hfin, hfin', hall]
    generalize a.flushAll = b at hprocessed hskipped ⊢
    exact ⟨b.report.recordFailedCommit t, _, rfl, by simp, hprocessed, hskipped, rfl, rfl⟩
  · have h' := h
    rw [← hsession] at h'
    rw [finish_ok h, finish_ok h', hall]
    generalize a.flushAll = b at hprocessed hskipped ⊢
    refine ⟨b.report, _, rfl, ?_, hprocessed, hskipped, rfl, rfl⟩
    rintro r ⟨rfl⟩
    rfl

end Accumulator

open Accumulator

variable {σ κ : Type} [Store σ κ]

/-- Every call that a load makes to a store, with what the store answered. -/
def exchanges (options : LoadOptions) (store : σ) (entities : List Entity) : List Exchange :=
  (ingest options ({ store } : Transcribed σ) entities).2.store.exchanges

/-- Writing the calls down does not change the load, so `exchanges` tells of the load itself. -/
theorem ingest_transcribed (options : LoadOptions) (store : σ) (entities : List Entity) :
    let x := ingest options ({ store } : Transcribed σ) entities
    let y := ingest options store entities
    x.1 = y.1 ∧ x.2.log = y.2.log ∧ x.2.store.store = y.2.store := by
  have hstart : (Transcribed.lockstep : Lockstep (Transcribed σ) σ).apart { store } store := rfl
  exact ingest_inside Transcribed.lockstep Transcribed.store options entities hstart (fun _ => id)
    Eq.symm fun h => h.2.symm

/-- A load with a filter and the load of what the filter lets through differ in the number of
skipped elements, which the last notice and the report give. -/
theorem ingest_admitted (options : LoadOptions) (store : σ) (entities : List Entity) :
    let x := ingest options store entities
    let y := ingest { options with filter := .all } store (options.filter.admitted entities)
    ∃ (report : Report) (log : Array Notice), x.2.log = log.push (.finished report) ∧
      (∀ r, x.1 = .ok r → r = report) ∧
      (∀ k, let n := entities.countP fun e => e.kind = k
        report.processed.get k = (if options.filter.includes k then n else 0) ∧
        report.skipped.get k = if options.filter.includes k then 0 else n) ∧
      y.1 = x.1.map Report.unskipped ∧
      y.2 = { x.2 with log := log.push (.finished report.unskipped) } := by
  have hdrained : drained { options with filter := .all } store
      (options.filter.admitted entities) = (drained options store entities).unskipped := by
    have h := foldl_dispatch_unskipped options.filter entities
      (a := .new store options.thresholds options.counterReset)
    exact congrArg (·.tell .drained) h
  have hcounts : ∀ k, let r := (drained options store entities).report
      let n := entities.countP fun e => e.kind = k
      r.processed.get k = (if options.filter.includes k then n else 0) ∧
        r.skipped.get k = if options.filter.includes k then 0 else n := by
    intro k
    have h := counts_foldl_dispatch options.filter entities k
      (a := .new store options.thresholds options.counterReset)
    simpa [Accumulator.new, drained, Accumulator.tell] using h
  dsimp only at hcounts
  rw [ingest_eq, ingest_eq, hdrained]
  generalize drained options store entities = a at hcounts ⊢
  dsimp only
  obtain ⟨report, log, hlog, hok, hprocessed, hskipped, houtcome, hsession⟩ :=
    finish_unskipped (a := a)
  rw [← hprocessed, ← hskipped] at hcounts
  exact ⟨report, log, hlog, hok, hcounts, houtcome, hsession⟩

/-- Filtering a stream while it is loaded comes to the same as loading what is left of it after
filtering: the store gets the same calls and answers them alike, it is left in the same state,
and the load ends alike. Its report differs in the skipped elements only, and accounts for every
element of the stream. -/
theorem ingest_filters (options : LoadOptions) (store : σ) (entities : List Entity) :
    let unfiltered := { options with filter := .all }
    let admitted := options.filter.admitted entities
    let x := ingest options store entities
    let y := ingest unfiltered store admitted
    exchanges unfiltered store admitted = exchanges options store entities ∧
    y.2.store = x.2.store ∧ y.2.live = x.2.live ∧
    y.1 = x.1.map Report.unskipped ∧
    ∃ (report : Report) (log : Array Notice), x.2.log = log.push (.finished report) ∧
      y.2.log = log.push (.finished report.unskipped) ∧
      (∀ r, x.1 = .ok r → r = report) ∧
      ∀ k, report.processed.get k + report.skipped.get k =
          entities.countP (fun e => e.kind = k) ∧
        if options.filter.includes k then report.skipped.get k = 0
        else report.processed.get k = 0 := by
  have htranscript : exchanges { options with filter := .all } store
      (options.filter.admitted entities) = exchanges options store entities := by
    obtain ⟨_, _, _, _, _, _, h⟩ := ingest_admitted options ({ store } : Transcribed σ) entities
    unfold exchanges
    rw [h]
  have hplain := ingest_admitted options store entities
  dsimp only at hplain ⊢
  generalize ingest options store entities = x at hplain ⊢
  generalize ingest { options with filter := .all } store _ = y at hplain ⊢
  obtain ⟨report, log, hlog, hok, hcounts, houtcome, hsession⟩ := hplain
  rw [hsession]
  refine ⟨htranscript, rfl, rfl, houtcome, report, log, hlog, rfl, hok, fun k => ?_⟩
  rw [(hcounts k).1, (hcounts k).2]
  split <;> simp

end MapLoader
