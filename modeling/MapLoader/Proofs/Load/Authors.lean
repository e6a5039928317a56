import MapLoader.Proofs.Load.Outcomes
import MapLoader.Proofs.Load.Reckoning
import MapLoader.Proofs.Load.Conservation
import MapLoader.Proofs.Session.Listing
import MapLoader.SortedMap.Lemmas

/-! The authors that wait, and the batches of them. Of the authors with one id only the first
waits who came since the last batch; so every author who comes waits under his id, or goes with the
next batch of users, whichever elements and failed flushes come in between. -/

namespace MapLoader

namespace Mark

def users? : Mark → Option (List User)
  | wrote (.users items) => some items
  | _ => none

def next (window : List User) : Mark → List User
  | came u => window ++ [u]
  | wrote (.users _) => []
  | wrote _ => window

def window (trail : List Mark) : List User := trail.foldl next []

theorem eq_wrote_of_users? {m : Mark} {items : List User} (h : m.users? = some items) :
    m = .wrote (.users items) := by
  cases m with
  | came u => cases h
  | wrote x => cases x <;> cases h; rfl

/-- An author stays in the window until a batch of users is written. -/
theorem mem_foldl_next {u : User} {w : List User} {ms : List Mark} (hu : u ∈ w)
    (h : ∀ m ∈ ms, m.users? = none) : u ∈ ms.foldl next w := by
  induction ms generalizing w with
  | nil => exact hu
  | cons m ms ih =>
    refine ih ?_ fun m' hm' => h m' (List.mem_cons_of_mem m hm')
    have hm := h m List.mem_cons_self
    cases m with
    | came v => exact List.mem_append_left _ hu
    | wrote x => cases x <;> first | exact hu | cases hm

/-- The users of the first batch of users. -/
theorem split_of_head? {ms : List Mark} {items : List User}
    (h : (ms.filterMap users?).head? = some items) : ∃ before after,
      ms = before ++ .wrote (.users items) :: after ∧ ∀ m ∈ before, m.users? = none := by
  obtain ⟨rest, hrest⟩ := List.head?_eq_some_iff.1 h
  obtain ⟨before, m, after, rfl, hb, hm, -⟩ := List.filterMap_eq_cons_iff.1 hrest
  exact ⟨before, after, by rw [eq_wrote_of_users? hm], hb⟩

end Mark

/-- The first of the authors with each id, in ascending order of the ids. -/
structure Firsts (authors items : List User) : Prop where
  ascending : (items.map User.id).Pairwise (· < ·)
  mem_iff (u : User) : u ∈ items ↔ authors.find? (fun v => v.id = u.id) = some u

theorem Firsts.exists_mem {authors items : List User} (h : Firsts authors items) {u : User}
    (hu : u ∈ authors) : u.id ∈ items.map User.id := by
  have hsome : (authors.find? fun v => v.id = u.id).isSome :=
    List.find?_isSome.2 ⟨u, hu, decide_eq_true rfl⟩
  obtain ⟨v, hv⟩ := Option.isSome_iff_exists.1 hsome
  have hid : v.id = u.id := by simpa using List.find?_some hv
  exact hid ▸ List.mem_map_of_mem ((h.mem_iff v).2 (hid ▸ hv))

/-- From these authors on, every batch of users on a trail holds the first of those who came. -/
def Faithful : List User → List Mark → Prop
  | _, [] => True
  | w, m :: ms => (∀ items, m.users? = some items → Firsts w items) ∧ Faithful (m.next w) ms

theorem faithful_append {w : List User} {xs ys : List Mark} :
    Faithful w (xs ++ ys) ↔ Faithful w xs ∧ Faithful (xs.foldl Mark.next w) ys := by
  induction xs generalizing w with
  | nil => simp [Faithful]
  | cons m xs ih => simp [Faithful, ih, and_assoc]

theorem Faithful.firsts {before after : List Mark} {items : List User}
    (h : Faithful [] (before ++ .wrote (.users items) :: after)) :
    Firsts (Mark.window before) items := (faithful_append.1 h).2.1 items rfl

/-- The users who wait are the first of the authors who came since the last batch, and so it was
whenever a batch was written. -/
structure Windowed (trail : List Mark) (b : Buffers) : Prop where
  waiting (id : Int) :
    b.users.find? id = ((Mark.window trail).find? fun u => u.id = id).map User.name
  faithful : Faithful [] trail

namespace Windowed

variable {trail : List Mark} {b : Buffers}

theorem firsts (h : Windowed trail b) :
    Firsts (Mark.window trail) (b.users.toList.map fun (id, name) => ⟨id, name⟩) := by
  refine ⟨?_, fun u => ?_⟩
  · rw [List.map_map]
    exact b.users.pairwise_keys.imp fun h => Int.compare_eq_lt.1 h
  · have hmem : u ∈ b.users.toList.map (fun (id, name) => (⟨id, name⟩ : User)) ↔
        (u.id, u.name) ∈ b.users.toList := by
      refine ⟨fun hu => ?_, fun hu => List.mem_map.2 ⟨_, hu, rfl⟩⟩
      obtain ⟨e, he, rfl⟩ := List.mem_map.1 hu
      exact he
    rw [hmem, ← SortedMap.find?_eq_some_iff, h.waiting, Option.map_eq_some_iff]
    refine ⟨fun ⟨v, hv, hname⟩ => ?_, fun hu => ⟨u, hu, rfl⟩⟩
    have hid : v.id = u.id := by simpa using List.find?_some hv
    obtain ⟨id, name⟩ := v
    cases hid
    cases hname
    exact hv

/-- An author who comes waits, unless one with his id waits already. -/
theorem came (h : Windowed trail b) (u : User) :
    Windowed (trail ++ [.came u]) (b.addUser u) := by
  have hw : Mark.window (trail ++ [.came u]) = Mark.window trail ++ [u] := by
    simp [Mark.window, Mark.next]
  refine ⟨fun id => ?_, faithful_append.2 ⟨h.faithful, nofun, trivial⟩⟩
  rw [hw, List.find?_append, Buffers.addUser]
  have hid := h.waiting id
  by_cases hu : u.id = id
  · subst hu
    rw [SortedMap.contains_eq_isSome]
    cases hf : (Mark.window trail).find? fun v => v.id = u.id with
    | some v => simp [hid, hf]
    | none => simp [hid, hf, SortedMap.find?_insert]
  · split <;> simp [hid, hu, Ne.symm hu, SortedMap.find?_insert]

theorem wrote (h : Windowed trail b) (t : Table) :
    Windowed (trail ++ [.wrote (b.batch t)]) (b.clear t) := by
  refine ⟨fun id => ?_, faithful_append.2 ⟨h.faithful, fun items hi => ?_, trivial⟩⟩
  · cases t with
    | users =>
      have hw : Mark.window (trail ++ [.wrote (b.batch .users)]) = [] := by
        simp [Mark.window, Mark.next, Buffers.batch]
      rw [hw]
      rfl
    | nodes | ways | wayNodes | relations | relationMembers =>
      simpa [Mark.window, Mark.next, Buffers.batch, Buffers.clear] using h.waiting id
  · cases t with
    | users =>
      cases hi
      exact h.firsts
    | nodes | ways | wayNodes | relations | relationMembers => cases hi

/-- An author who came goes with the first batch after him, or his id waits. -/
theorem reaches {before after : List Mark} {u : User}
    (h : Windowed (before ++ .came u :: after) b) :
    match (after.filterMap Mark.users?).head? with
    | some items => u.id ∈ items.map User.id
    | none => u.id ∈ b.users.keys := by
  have hu : u ∈ Mark.next (Mark.window before) (.came u) :=
    List.mem_append_right _ (List.mem_singleton.2 rfl)
  split
  · rename_i items hi
    obtain ⟨mid, rest, rfl, hmid⟩ := Mark.split_of_head? hi
    have hf : Faithful [] ((before ++ .came u :: mid) ++ .wrote (.users items) :: rest) := by
      simpa using h.faithful
    refine hf.firsts.exists_mem ?_
    rw [Mark.window, List.foldl_append, List.foldl_cons]
    exact Mark.mem_foldl_next hu hmid
  · rename_i hn
    have hnone : ∀ m ∈ after, m.users? = none :=
      List.filterMap_eq_nil_iff.1 (List.head?_eq_none_iff.1 hn)
    have hin : u ∈ Mark.window (before ++ .came u :: after) := by
      rw [Mark.window, List.foldl_append, List.foldl_cons]
      exact Mark.mem_foldl_next hu hnone
    have hmem := h.firsts.exists_mem hin
    rwa [List.map_map] at hmem

end Windowed

theorem usersBatches_eq (trail : List Mark) :
    (((trail.filterMap Mark.batch?).map Batch.entry).filter fun b => b.1 = .users).map Prod.snd =
      (trail.filterMap Mark.users?).map (List.map User.row) := by
  induction trail with
  | nil => rfl
  | cons m trail ih =>
    cases m with
    | came u => simpa [List.filterMap_cons, Mark.users?, Mark.batch?] using ih
    | wrote x =>
      cases x with
      | users items =>
        simpa [List.filterMap_cons, Mark.users?, Mark.batch?, Batch.entry, Batch.table, Batch.rows,
          Batch.bindings, User.binding, Function.comp_def] using ih
      | nodes | ways | wayNodes | relations | relationMembers =>
        simpa [List.filterMap_cons, Mark.users?, Mark.batch?, Batch.entry, Batch.table] using ih

theorem User.value?_row (u : User) : Table.users.value? "id" u.row = some (.integer u.id) := rfl

theorem Entity.value?_row (e : Entity) :
    e.kind.table.value? "user_id" e.row = some (.integer e.user.id) := by
  cases e <;> rfl

namespace Accumulator

section

variable {σ κ : Type} [Store σ κ]

theorem flush_moves (t : Table) (a : Accumulator σ κ) :
    (a.flushPosts t = [] ∧ (a.flush t).2.buffers = a.buffers) ∨
      (a.flushPosts t = [a.buffers.batch t] ∧ (a.flush t).2.buffers = a.buffers.clear t) := by
  by_cases ht : a.buffered t = 0
  · rw [flushPosts_empty ht, flush_empty ht]
    exact .inl ⟨rfl, rfl⟩
  · rw [(flush_frame t a ht).1]
    rcases hw : a.write t with ⟨e | rows, b⟩
    · rw [flushPosts_missed ht hw, flush_missed ht hw]
      exact .inl ⟨rfl, rfl⟩
    · have hposts := flushPosts_landed ht hw
      refine .inr ⟨hposts, if_neg fun hf => ?_⟩
      rw [flushPosts, hf] at hposts
      cases hposts

theorem traced_windowed :
    Traced fun trail (a : Accumulator σ κ) => Windowed trail a.buffers where
  author u h := h.came u
  element e h := ⟨fun id => by cases e <;> exact h.waiting id, h.faithful⟩
  flush {_ a} t h := by
    obtain ⟨hposts, hb⟩ | ⟨hposts, hb⟩ := flush_moves t a
    · rw [hposts, hb, List.map_nil, List.append_nil]
      exact h
    · rw [hposts, hb]
      exact h.wrote t

/-- Every element that is added leaves the mark of its author. -/
theorem came_mem_marks (calls : List Call) (a : Accumulator σ κ) {e : Entity}
    (he : e ∈ calls.filterMap Call.entity?) : .came e.user ∈ a.marks calls := by
  have hmem : e.user ∈ (a.marks calls).filterMap Mark.author? := by
    rw [filterMap_author?_marks]
    exact List.mem_map_of_mem he
  obtain ⟨m, hm, hauthor⟩ := List.mem_filterMap.1 hmem
  cases m with
  | came u =>
    cases hauthor
    exact hm
  | wrote x => cases hauthor

theorem windowed_marks {a : Accumulator σ κ} (ha : a.buffers = {}) (calls : List Call) :
    Windowed (a.marks calls) (a.performAll calls).buffers := by
  have hstart : Windowed [] a.buffers := by
    rw [ha]
    exact ⟨fun _ => rfl, trivial⟩
  simpa using traced_windowed.performAll calls hstart

end

theorem batchesOn_users {faults : List Fault} (hf : Fault.Conforming faults)
    (thresholds : Thresholds) (policy : CounterReset) (calls : List Call) :
    (performAll calls (fresh faults thresholds policy)).session.store.inner.batchesOn .users =
      (((fresh faults thresholds policy).marks calls).filterMap Mark.users?).map
        (List.map User.row) := by
  obtain ⟨A, hA, hb⟩ := books_performAll Books.Entry.batches_eq hf thresholds policy rfl calls
  have hb : A.batches = (performAllPosts calls (fresh faults thresholds policy)).map Batch.entry :=
    hb
  rw [Memory.batchesOn, hA.batches_eq, hb, ← filterMap_batch?_marks, usersBatches_eq]

section

variable {spared : List CallPoint} {a : FaultyAccumulator} {A : Account}

/-- Flushing other tables leaves a buffer and its failed flushes alone. -/
theorem flushes_other (h : a.session.Keeps spared A) (hk : .executeKeep ∈ spared)
    {ts : List Table} {u : Table} (hu : u ∉ ts) : (a.flushes ts).buffered u = a.buffered u ∧
      (a.flushes ts).report.failedFlushes.get u = a.report.failedFlushes.get u := by
  induction ts generalizing a A with
  | nil => exact ⟨rfl, rfl⟩
  | cons t ts ih =>
    obtain ⟨hne, hu⟩ := not_or.1 (mt List.mem_cons.2 hu)
    obtain ⟨B, hB, -⟩ := entries_flush h hk t []
    obtain ⟨hb, hf⟩ := ih hB hu
    rw [flushes_cons, hb, hf, failedFlushes_flush h hk]
    constructor
    · obtain ⟨-, hb⟩ | ⟨-, hb⟩ := flush_moves t a
      · rw [buffered, hb]
        rfl
      · rw [buffered, hb, Buffers.size_clear, if_neg hne]
        rfl
    · split
      · rw [PerTable.get_modify, if_neg hne]
      · rfl

/-- Unless the users cannot be flushed, none of them waits when all buffers were flushed. -/
theorem buffered_users_flushAll (h : a.session.Keeps spared A) (hk : .executeKeep ∈ spared)
    (hf : a.flushAll.report.failedFlushes.get .users = a.report.failedFlushes.get .users) :
    a.flushAll.buffered .users = 0 := by
  obtain ⟨B, hB, -⟩ := entries_flush h hk .users []
  have hall : a.flushAll = (a.flush .users).2.flushes Table.all.tail :=
    (flushAll_eq a).trans (flushes_cons .users Table.all.tail a)
  have hother : Table.users ∉ Table.all.tail := by decide
  obtain ⟨hb, hff⟩ := flushes_other hB hk hother
  rw [hall, hff, failedFlushes_flush h hk] at hf
  have ho : (a.flush .users).1 ≠ .failed := fun ho => by simp [ho] at hf
  rw [hall, hb]
  by_cases ht : a.buffered .users = 0
  · rw [flush_empty ht]
    exact ht
  · rw [buffered, (flush_frame .users a ht).1, if_neg ho, Buffers.size_clear, if_pos rfl]

end

section

variable {faults : List Fault} (hf : Fault.Conforming faults) (thresholds : Thresholds)
  (policy : CounterReset) (calls : List Call) {report : Report}
  (ho : (performAll calls (fresh faults thresholds policy)).finish.1 = .ok report)
include hf ho

/-- Unless a failed commit of a table was counted, a load that finishes well commits all that was
executed on it. -/
theorem committed_of_finish_ok {t : Table} (hc : report.failedCommits.get t = 0) :
    let s := (performAll calls (fresh faults thresholds policy)).finish.2.session
    (s.store.inner.committed.get t).toList = s.store.inner.executed t := by
  obtain ⟨A, hA, hr⟩ := books_performAll Books.Reckoned.entry hf thresholds policy
    (reckoned_fresh faults thresholds policy) calls
  generalize performAll calls (fresh faults thresholds policy) = a at ho hA hr ⊢
  obtain ⟨D, counters, xs, hD, hn, hrD⟩ := reckoned_finish hA hr
  have hz : D.losses t = 0 := by
    have hle := hrD.charged t
    dsimp only at hle
    rw [report_finish ho, hc] at hle
    exact Nat.le_zero.1 hle
  calc (a.finish.2.session.store.inner.committed.get t).toList
    _ = D.committed t := hD.committed_eq t
    _ = D.held t := (congrFun (Account.held_closed hn) t).symm
    _ = D.executed t := hrD.fair.held_eq hz
    _ = a.finish.2.session.store.inner.executed t := (hD.executed_eq t).symm

/-- If the users can be flushed in the end, every author was executed under his id. -/
theorem authors_executed (hd : report.failedFlushes.get .users =
      (performAll calls (fresh faults thresholds policy)).report.failedFlushes.get .users)
    {e : Entity} (he : e ∈ calls.filterMap Call.entity?) : ∃ u : User, u.id = e.user.id ∧ u.row ∈
      (performAll calls (fresh faults thresholds policy)).finish.2.session.store.inner.executed
        .users := by
  have hw := windowed_marks (a := fresh faults thresholds policy) rfl
    (calls ++ Table.all.map .flush)
  have hjournal := batchesOn_users hf thresholds policy (calls ++ Table.all.map .flush)
  have hmark := came_mem_marks (calls ++ Table.all.map .flush) (fresh faults thresholds policy)
    (List.filterMap_append ▸ List.mem_append_left _ he)
  obtain ⟨A, hA, -⟩ := fair_performAll hf thresholds policy calls
  obtain ⟨B, hB, -⟩ := fair_performAll hf thresholds policy (calls ++ Table.all.map .flush)
  rw [performAll_flushAll] at hw hjournal hB
  generalize (fresh faults thresholds policy).marks (calls ++ Table.all.map .flush) = trail
    at hw hjournal hmark
  generalize performAll calls (fresh faults thresholds policy) = a at ho hd hw hjournal hA hB ⊢
  obtain ⟨before, after, rfl⟩ := List.append_of_mem hmark
  have hreach := hw.reaches
  split at hreach
  · rename_i items hi
    obtain ⟨u, hu, hid⟩ := List.mem_map.1 hreach
    have hitems : items ∈ (before ++ .came e.user :: after).filterMap Mark.users? := by
      rw [List.filterMap_append, List.filterMap_cons]
      exact List.mem_append_right _ (List.mem_of_head? hi)
    refine ⟨u, hid, ?_⟩
    rw [executed_finish hB, ← Memory.flatten_batchesOn, hjournal]
    exact List.mem_flatten.2 ⟨_, List.mem_map_of_mem hitems, List.mem_map_of_mem hu⟩
  · -- He cannot wait any more, because all users were flushed.
    rw [← (report_flushAll ho).1] at hd
    have hz := buffered_users_flushAll hA (List.mem_singleton.2 rfl) hd
    have hnil : a.flushAll.buffers.users = .empty := SortedMap.eq_empty hz
    rw [hnil] at hreach
    cases hreach

end

/-- The users of every batch are the first of the authors who came since the batch before it, in
ascending order of their ids, and every author goes with the first batch of users that is written
after he came, or his id waits; in every state that adding and flushing can reach under any faults
that drop the batches they strike. So if a load finishes well, the users were flushed in the end,
and no failed commit of them was counted, then the author of every committed element is
committed. -/
theorem users_deduplicated (faults : List Fault) (hf : Fault.Conforming faults)
    (thresholds : Thresholds) (policy : CounterReset) (calls : List Call) :
    let a := performAll calls (fresh faults thresholds policy)
    let trail := (fresh faults thresholds policy).marks calls
    let committed (t : Table) := (a.finish.2.session.store.inner.committed.get t).toList
    trail.filterMap Mark.author? = (calls.filterMap Call.entity?).map Entity.user ∧
      a.session.store.inner.batchesOn .users = (trail.filterMap Mark.users?).map (List.map fun u =>
        [.integer u.id, .text (if u.name = "" then "NO_NAME_FOUND" else u.name)]) ∧
      (∀ before items after, trail = before ++ .wrote (.users items) :: after →
        Firsts (Mark.window before) items) ∧
      (∀ before u after, trail = before ++ .came u :: after →
        match (after.filterMap Mark.users?).head? with
        | some items => u.id ∈ items.map User.id
        | none => u.id ∈ a.buffers.users.keys) ∧
      ∀ report, a.finish.1 = .ok report →
        report.failedFlushes.get .users = a.report.failedFlushes.get .users →
        report.failedCommits.get .users = 0 → ∀ k : ElementKind, ∀ r ∈ committed k.table,
          ∃ id, k.table.value? "user_id" r = some (.integer id) ∧
            ∃ s ∈ committed .users, Table.users.value? "id" s = some (.integer id) := by
  have hw := windowed_marks (a := fresh faults thresholds policy) rfl calls
  have hrow : User.row = fun u =>
      [.integer u.id, .text (if u.name = "" then "NO_NAME_FOUND" else u.name)] := by
    funext u
    simp [User.row, noNameFound, String.isEmpty_iff]
  have hjournal := batchesOn_users hf thresholds policy calls
  rw [hrow] at hjournal
  refine ⟨filterMap_author?_marks calls _, hjournal, fun before items after h => ?_,
    fun before u after h => ?_, fun report ho hd hc k r hr => ?_⟩
  · have hfaithful := hw.faithful
    rw [h] at hfaithful
    exact hfaithful.firsts
  · rw [h] at hw
    exact hw.reaches
  · have hall := conserves_performAll hf thresholds policy calls
    obtain ⟨e, he, rfl, rfl⟩ := hall.finish.exists_element hr
    obtain ⟨u, hid, hu⟩ := authors_executed hf thresholds policy calls ho hd he
    rw [← committed_of_finish_ok hf thresholds policy calls ho hc] at hu
    exact ⟨_, e.value?_row, u.row, hu, hid ▸ u.value?_row⟩

def secondBatchFaults : List Fault := [{ point := .execute, skip := 1, times := some 1 }]

def editedBy (id : Int) (u : User) : Call := .add (.node ⟨id, { user := u }, ⟨⟨0⟩, ⟨0⟩⟩, .empty⟩)

/-- Two names under one id, no name, a third author, and the first id again with a third name. -/
def editedCalls : List Call :=
  [editedBy 1 ⟨7, "ann"⟩, editedBy 2 ⟨7, "bob"⟩, editedBy 3 ⟨8, ""⟩, editedBy 4 ⟨9, "joe"⟩,
    editedBy 5 ⟨7, "zoe"⟩]

/-- The batch that is struck keeps its window open, so the next one holds the first name; the third
name waits until the end, and no author is missing. -/
theorem users_deduplicated_edited :
    Fault.Conforming secondBatchFaults ∧
      let a := performAll editedCalls (fresh secondBatchFaults ⟨2, 10, 10⟩ .global)
      a.report.failedFlushes.get .users = 1 ∧ a.buffers.users.toList = [(7, "zoe")] ∧
        a.session.store.inner.batchesOn .users = [[[.integer 7, .text "ann"],
          [.integer 8, .text "NO_NAME_FOUND"], [.integer 9, .text "joe"]]] ∧
        ∀ r ∈ (a.finish.2.session.store.inner.committed.get .nodes).toList,
          ∃ id, Table.nodes.value? "user_id" r = some (.integer id) ∧
            ∃ s ∈ (a.finish.2.session.store.inner.committed.get .users).toList,
              Table.users.value? "id" s = some (.integer id) := by
  have hf : Fault.Conforming secondBatchFaults := by
    unfold Fault.Conforming
    decide
  obtain ⟨-, hjournal, -, -, hall⟩ :=
    users_deduplicated secondBatchFaults hf ⟨2, 10, 10⟩ .global editedCalls
  exact ⟨hf, rfl, rfl, hjournal.trans (by decide +kernel), hall _ rfl rfl rfl .node⟩

end Accumulator
end MapLoader
