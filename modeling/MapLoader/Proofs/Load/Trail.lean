import MapLoader.Proofs.Load.Moves

/-! The batches that a run of an accumulator writes, in order. A flush adds to them the whole
buffer of its table, or nothing. -/

namespace MapLoader

/-- The number of entries; a list of members counts once. -/
def Batch.size : Batch → Nat
  | .users items => items.length
  | .nodes items => items.length
  | .ways items => items.length
  | .wayNodes items => items.length
  | .relations items => items.length
  | .relationMembers items => items.length

theorem Buffers.size_batch (b : Buffers) (t : Table) : (b.batch t).size = b.size t := by
  cases t with
  | users => exact List.length_map _
  | nodes | ways | wayNodes | relations | relationMembers => rfl

/-- Only lists of members expand to more or fewer rows than entries. -/
theorem Batch.length_rows {x : Batch} (h : x.table.isMemberList = false) :
    x.rows.length = x.size := by
  cases x with
  | wayNodes | relationMembers => cases h
  | users | nodes | ways | relations => simp [rows, bindings, size]

/-- What a run leaves on its trail: the authors that came with its elements, and the batches. -/
inductive Mark
  | came (u : User)
  | wrote (x : Batch)

namespace Mark

def author? : Mark → Option User
  | came u => some u
  | wrote _ => none

def batch? : Mark → Option Batch
  | came _ => none
  | wrote x => some x

@[simp] theorem author?_came (u : User) : (came u).author? = some u := rfl
@[simp] theorem author?_wrote (x : Batch) : (wrote x).author? = none := rfl
@[simp] theorem author?_comp_wrote : author? ∘ wrote = fun _ => none := rfl
@[simp] theorem batch?_came (u : User) : (came u).batch? = none := rfl
@[simp] theorem batch?_wrote (x : Batch) : (wrote x).batch? = some x := rfl
@[simp] theorem batch?_comp_wrote : batch? ∘ wrote = some := rfl

end Mark

namespace Accumulator

variable {σ κ : Type} [Store σ κ]

/-- The batch that flushing a buffer writes, if it writes one. -/
def flushPosts (t : Table) (a : Accumulator σ κ) : List Batch :=
  match (a.flush t).1 with
  | .empty | .failed => []
  | .flushed _ | .committed _ | .commitFailed _ => [a.buffers.batch t]

theorem flushPosts_empty {t : Table} {a : Accumulator σ κ} (ht : a.buffered t = 0) :
    a.flushPosts t = [] := by
  rw [flushPosts, flush_empty ht]

theorem flushPosts_missed {t : Table} {a b : Accumulator σ κ} {e : SessionError}
    (ht : a.buffered t ≠ 0) (h : a.write t = (.error e, b)) : a.flushPosts t = [] := by
  rw [flushPosts, flush_missed ht h]

theorem commit_cases (t : Table) (rows : Nat) (a : Accumulator σ κ) :
    (a.commit t rows).1 = .committed rows ∨ (a.commit t rows).1 = .commitFailed rows := by
  unfold commit
  split
  · exact .inl rfl
  · exact .inr rfl

/-- The batch is written even if a commit that it makes due fails. -/
theorem flushPosts_landed {t : Table} {a b : Accumulator σ κ} {rows : Nat}
    (ht : a.buffered t ≠ 0) (h : a.write t = (.ok rows, b)) :
    a.flushPosts t = [a.buffers.batch t] := by
  rw [flushPosts, flush_landed ht h]
  generalize b.landed t (a.buffered t) rows = c
  by_cases hc : c.CommitDue t
  · rw [if_pos hc]
    obtain ho | ho := commit_cases t rows c <;> rw [ho]
  · rw [if_neg hc]

def flushesPosts : List Table → Accumulator σ κ → List Batch
  | [], _ => []
  | t :: ts, a => a.flushPosts t ++ (a.flush t).2.flushesPosts ts

def addPosts (e : Entity) (a : Accumulator σ κ) : List Batch :=
  (a.author e.user).flushesPosts (a.dueWithUser e.user) ++
    (a.staged e).flushesPosts ((a.staged e).dueAmong e.tables)

def performPosts (a : Accumulator σ κ) : Call → List Batch
  | .add e => a.addPosts e
  | .flush t => a.flushPosts t

def performAllPosts : List Call → Accumulator σ κ → List Batch
  | [], _ => []
  | c :: calls, a => a.performPosts c ++ (a.perform c).performAllPosts calls

/-- The author of an element comes before any batch is written for it. -/
def performMarks (a : Accumulator σ κ) : Call → List Mark
  | .add e => .came e.user :: (a.addPosts e).map .wrote
  | .flush t => (a.flushPosts t).map .wrote

def marks : List Call → Accumulator σ κ → List Mark
  | [], _ => []
  | c :: calls, a => a.performMarks c ++ (a.perform c).marks calls

theorem filterMap_batch?_marks (calls : List Call) (a : Accumulator σ κ) :
    (a.marks calls).filterMap Mark.batch? = a.performAllPosts calls := by
  induction calls generalizing a with
  | nil => rfl
  | cons c calls ih =>
    cases c <;>
      simp [marks, performMarks, performAllPosts, performPosts, List.filterMap_cons, ih]

theorem filterMap_author?_marks (calls : List Call) (a : Accumulator σ κ) :
    (a.marks calls).filterMap Mark.author? =
      (calls.filterMap Call.entity?).map Entity.user := by
  induction calls generalizing a with
  | nil => rfl
  | cons c calls ih =>
    cases c <;> simp [marks, performMarks, Call.entity?, List.filterMap_cons, ih]

/-- What the moves keep, of an accumulator with this trail. -/
structure Traced (P : List Mark → Accumulator σ κ → Prop) : Prop where
  author {ms : List Mark} {a : Accumulator σ κ} (u : User) :
    P ms a → P (ms ++ [.came u]) (a.author u)
  element {ms : List Mark} {a : Accumulator σ κ} (e : Entity) : P ms a → P ms (a.element e)
  flush {ms : List Mark} {a : Accumulator σ κ} (t : Table) :
    P ms a → P (ms ++ (a.flushPosts t).map .wrote) (a.flush t).2

namespace Traced

variable {P : List Mark → Accumulator σ κ → Prop} (T : Traced P) {ms : List Mark}
  {a : Accumulator σ κ}
include T

theorem flushes (ts : List Table) (h : P ms a) :
    P (ms ++ (a.flushesPosts ts).map .wrote) (a.flushes ts) := by
  induction ts generalizing ms a with
  | nil => simpa [flushesPosts] using h
  | cons t ts ih => simpa [flushesPosts] using ih (T.flush t h)

theorem add (e : Entity) (h : P ms a) :
    P (ms ++ .came e.user :: (a.addPosts e).map .wrote) (a.add e) := by
  have hu := T.flushes (a.dueWithUser e.user) (T.author e.user h)
  rw [← addUser_eq] at hu
  have he : P _ (a.staged e) := T.element e hu
  rw [add_eq]
  simpa [addPosts] using T.flushes ((a.staged e).dueAmong e.tables) he

theorem performAll (calls : List Call) (h : P ms a) :
    P (ms ++ a.marks calls) (a.performAll calls) := by
  induction calls generalizing ms a with
  | nil => simpa [marks, Accumulator.performAll] using h
  | cons c calls ih =>
    have hc : P (ms ++ a.performMarks c) (a.perform c) := by
      cases c with
      | add e => exact T.add e h
      | flush t => exact T.flush t h
    simpa [marks, Accumulator.performAll] using ih hc

end Traced

/-- What the moves keep, of an accumulator that wrote these batches so far. -/
structure Recorded (P : List Batch → Accumulator σ κ → Prop) : Prop where
  author {xs : List Batch} {a : Accumulator σ κ} (u : User) : P xs a → P xs (a.author u)
  element {xs : List Batch} {a : Accumulator σ κ} (e : Entity) : P xs a → P xs (a.element e)
  flush {xs : List Batch} {a : Accumulator σ κ} (t : Table) :
    P xs a → P (xs ++ a.flushPosts t) (a.flush t).2

namespace Recorded

variable {P : List Batch → Accumulator σ κ → Prop} (R : Recorded P) {xs : List Batch}
  {a : Accumulator σ κ}
include R

/-- The batches are a part of the trail. -/
theorem traced : Traced fun ms (a : Accumulator σ κ) => P (ms.filterMap Mark.batch?) a where
  author u h := by simpa [List.filterMap_cons] using R.author u h
  element e h := R.element e h
  flush t h := by simpa using R.flush t h

theorem flushes (ts : List Table) (h : P xs a) : P (xs ++ a.flushesPosts ts) (a.flushes ts) := by
  have hx : P ((xs.map .wrote).filterMap Mark.batch?) a := by simpa using h
  simpa using R.traced.flushes ts hx

/-- What holds before anything is written holds of all that is written later. -/
theorem performAll_of_nil (calls : List Call) (h : P [] a) :
    P (a.performAllPosts calls) (a.performAll calls) := by
  have hx : P (([] : List Mark).filterMap Mark.batch?) a := h
  simpa [filterMap_batch?_marks] using R.traced.performAll calls hx

end Recorded

section Gathered

variable {α β : Type} (f : Table → Accumulator σ κ → List α)

/-- What flushing some tables one after another gathers, if each flush contributes this. -/
def gatherFlushes : List Table → Accumulator σ κ → List α
  | [], _ => []
  | t :: ts, a => f t a ++ gatherFlushes ts (a.flush t).2

def gatherCall (a : Accumulator σ κ) : Call → List α
  | .add e => gatherFlushes f (a.dueWithUser e.user) (a.author e.user) ++
      gatherFlushes f ((a.staged e).dueAmong e.tables) (a.staged e)
  | .flush t => f t a

def gather : List Call → Accumulator σ κ → List α
  | [], _ => []
  | c :: calls, a => gatherCall f a c ++ gather calls (a.perform c)

theorem exists_of_mem_gatherFlushes {x : α} {ts : List Table} {a : Accumulator σ κ}
    (h : x ∈ gatherFlushes f ts a) : ∃ t b, x ∈ f t b := by
  induction ts generalizing a with
  | nil => cases h
  | cons t ts ih => exact (List.mem_append.1 h).elim (fun h => ⟨t, a, h⟩) ih

/-- What a run gathers comes from its flushes. -/
theorem exists_of_mem_gather {x : α} {calls : List Call} {a : Accumulator σ κ}
    (h : x ∈ gather f calls a) : ∃ t b, x ∈ f t b := by
  induction calls generalizing a with
  | nil => cases h
  | cons c calls ih =>
    refine (List.mem_append.1 h).elim (fun h => ?_) ih
    cases c with
    | add e =>
      exact (List.mem_append.1 h).elim (exists_of_mem_gatherFlushes f)
        (exists_of_mem_gatherFlushes f)
    | flush t => exact ⟨t, a, h⟩

theorem map_gatherFlushes (g : α → β) (ts : List Table) (a : Accumulator σ κ) :
    (gatherFlushes f ts a).map g = gatherFlushes (fun t a => (f t a).map g) ts a := by
  induction ts generalizing a with
  | nil => rfl
  | cons t ts ih => rw [gatherFlushes, gatherFlushes, List.map_append, ih]

theorem map_gather (g : α → β) (calls : List Call) (a : Accumulator σ κ) :
    (gather f calls a).map g = gather (fun t a => (f t a).map g) calls a := by
  induction calls generalizing a with
  | nil => rfl
  | cons c calls ih =>
    rw [gather, gather, List.map_append, ih]
    cases c with
    | add e => rw [gatherCall, gatherCall, List.map_append, map_gatherFlushes, map_gatherFlushes]
    | flush t => rfl

theorem gatherFlushes_flushPosts (ts : List Table) (a : Accumulator σ κ) :
    gatherFlushes flushPosts ts a = a.flushesPosts ts := by
  induction ts generalizing a with
  | nil => rfl
  | cons t ts ih => rw [gatherFlushes, flushesPosts, ih]

/-- The batches of a run are gathered from its flushes. -/
theorem gather_flushPosts (calls : List Call) (a : Accumulator σ κ) :
    gather flushPosts calls a = a.performAllPosts calls := by
  induction calls generalizing a with
  | nil => rfl
  | cons c calls ih =>
    rw [gather, performAllPosts, ih]
    cases c with
    | add e =>
      rw [gatherCall, performPosts, addPosts, gatherFlushes_flushPosts, gatherFlushes_flushPosts]
    | flush t => rfl

variable {f}

/-- What the moves keep, of an accumulator whose flushes so far gathered this. -/
structure Gathers (f : Table → Accumulator σ κ → List α)
    (P : List α → Accumulator σ κ → Prop) : Prop where
  author {xs : List α} {a : Accumulator σ κ} (u : User) : P xs a → P xs (a.author u)
  element {xs : List α} {a : Accumulator σ κ} (e : Entity) : P xs a → P xs (a.element e)
  flush {xs : List α} {a : Accumulator σ κ} (t : Table) :
    P xs a → P (xs ++ f t a) (a.flush t).2

variable {P : List α → Accumulator σ κ → Prop} {xs : List α} {a : Accumulator σ κ}

theorem Gathers.flushes (G : Gathers f P) (ts : List Table) (h : P xs a) :
    P (xs ++ gatherFlushes f ts a) (a.flushes ts) := by
  induction ts generalizing xs a with
  | nil => simpa [gatherFlushes] using h
  | cons t ts ih => simpa [gatherFlushes] using ih (G.flush t h)

theorem Gathers.call (G : Gathers f P) (c : Call) (h : P xs a) :
    P (xs ++ gatherCall f a c) (a.perform c) := by
  cases c with
  | add e =>
    have hu := G.flushes (a.dueWithUser e.user) (G.author e.user h)
    rw [← addUser_eq] at hu
    have he : P _ (a.staged e) := G.element e hu
    have hall := G.flushes ((a.staged e).dueAmong e.tables) he
    rw [← add_eq, List.append_assoc] at hall
    exact hall
  | flush t => exact G.flush t h

theorem Gathers.performAll (G : Gathers f P) (calls : List Call) (h : P xs a) :
    P (xs ++ gather f calls a) (a.performAll calls) := by
  induction calls generalizing xs a with
  | nil => simpa [gather, Accumulator.performAll] using h
  | cons c calls ih => simpa [gather, Accumulator.performAll] using ih (G.call c h)

end Gathered

end Accumulator
end MapLoader
