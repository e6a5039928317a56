import Mathlib.Data.List.DropRight
import MapLoader.Proofs.Load.Metering
import MapLoader.Proofs.Load.Outcomes

/-! When tables commit that are counted apart. If a commit that is due resets the counter of its
own table only, the counter is the number of entries written since the table last tried to commit.
So whether a flush brings about a commit depends on the sizes of the flushes of its table, and on
nothing that happens to other tables. -/

namespace MapLoader

structure Landing where
  batch : Batch
  outcome : FlushOutcome
  deriving DecidableEq

namespace Landing

def size (l : Landing) : Nat := l.batch.size

/-- The flush went on to commit, whether or not it could. -/
def attempted (l : Landing) : Bool :=
  match l.outcome with
  | .committed _ | .commitFailed _ => true
  | .empty | .flushed _ | .failed => false

def on (t : Table) (ls : List Landing) : List Landing := ls.filter fun l => l.batch.table = t

theorem on_concat (t : Table) (ls : List Landing) (l : Landing) :
    on t (ls ++ [l]) = on t ls ++ if l.batch.table = t then [l] else [] := by
  by_cases h : l.batch.table = t <;> simp [on, h]

def sinceAttempt (ls : List Landing) : Nat :=
  ((ls.rtakeWhile fun l => !l.attempted).map size).sum

theorem sinceAttempt_concat (ls : List Landing) (l : Landing) :
    sinceAttempt (ls ++ [l]) = if l.attempted then 0 else sinceAttempt ls + l.size := by
  unfold sinceAttempt
  rw [List.rtakeWhile_concat]
  cases l.attempted <;> simp

/-- Attempts to commit come exactly when the entries since the attempt before reach a number. -/
def Paced (n : Nat) (ls : List Landing) : Prop :=
  ∀ before l after, ls = before ++ l :: after →
    (l.attempted = true ↔ n ≤ addSaturating (sinceAttempt before) l.size)

theorem paced_nil (n : Nat) : Paced n [] := fun _ _ _ h => by simp at h

theorem paced_concat {n : Nat} {ls : List Landing} {l : Landing} : Paced n (ls ++ [l]) ↔
    Paced n ls ∧ (l.attempted = true ↔ n ≤ addSaturating (sinceAttempt ls) l.size) := by
  constructor
  · exact fun h => ⟨fun before m after he => h before m (after ++ [l]) (by simp [he]),
      h ls l [] rfl⟩
  · rintro ⟨h, hl⟩ before m after he
    rcases List.eq_nil_or_concat' after with rfl | ⟨rest, x, rfl⟩
    · obtain ⟨rfl, hm⟩ := List.append_inj' he rfl
      cases hm
      exact hl
    · rw [← List.cons_append, ← List.append_assoc] at he
      exact h before m rest (List.append_inj' he rfl).1

theorem Paced.congr {n : Nat} {ls ls' : List Landing} (h : Paced n ls) (h' : Paced n ls')
    (hs : ls.map size = ls'.map size) :
    ls.map attempted = ls'.map attempted ∧ sinceAttempt ls = sinceAttempt ls' := by
  induction ls using List.reverseRecOn generalizing ls' with
  | nil =>
    obtain rfl := List.map_eq_nil_iff.1 hs.symm
    exact ⟨rfl, rfl⟩
  | append_singleton ls l ih =>
    rcases List.eq_nil_or_concat' ls' with rfl | ⟨ls', l', rfl⟩
    · simp at hs
    · rw [List.map_append, List.map_append] at hs
      obtain ⟨hs, hl⟩ := List.append_inj' hs rfl
      obtain ⟨h, ha⟩ := paced_concat.1 h
      obtain ⟨h', ha'⟩ := paced_concat.1 h'
      obtain ⟨hall, hsince⟩ := ih h h' hs
      have hl : l.size = l'.size := List.singleton_inj.1 hl
      have hsame : l.attempted = l'.attempted := by
        rw [Bool.eq_iff_iff, ha, ha', hsince, hl]
      exact ⟨by simp [hall, hsame], by rw [sinceAttempt_concat, sinceAttempt_concat, hsince, hl,
        hsame]⟩

end Landing

theorem Counters.reset_switch {c : Counters} (h : c.policy = .perTable) : c.reset .switch = c := by
  unfold reset
  rw [h]

theorem Counters.get_reset_other {c : Counters} (h : c.policy = .perTable) {t u : Table}
    (hu : u ≠ t) : (c.reset (.threshold t)).get u = c.get u := by
  simp [reset, h, get, hu]

namespace Accumulator

variable {σ κ : Type}

/-- Each counter is the number of entries since the last attempt of its table, and the attempts of
each table come at the pace of its threshold. -/
structure CountsApart (h : Thresholds) (ls : List Landing) (a : Accumulator σ κ) : Prop where
  policy : a.counters.policy = .perTable
  thresholds : a.thresholds = h
  counter (t : Table) : a.counters.get t = min (Landing.sinceAttempt (Landing.on t ls)) maxUInt64
  paced (t : Table) : Landing.Paced (h.commitFor t) (Landing.on t ls)

theorem CountsApart.total_eq {a : Accumulator σ κ} {h : Thresholds} {ls : List Landing}
    (ha : a.CountsApart h ls) (t : Table) (n : Nat) : addSaturating (a.counters.get t) n =
      addSaturating (Landing.sinceAttempt (Landing.on t ls)) n := by
  rw [ha.counter, addSaturating_min]
  rfl

/-- One more batch counts on its own table, which starts anew if the flush tried to commit. -/
theorem CountsApart.land {h : Thresholds} {ls : List Landing} {a b : Accumulator σ κ} {l : Landing}
    (ha : a.CountsApart h ls) (hp : b.counters.policy = .perTable) (hh : b.thresholds = h)
    (hother : ∀ u, u ≠ l.batch.table → b.counters.get u = a.counters.get u)
    (hown : b.counters.get l.batch.table =
      if l.attempted then 0 else addSaturating (a.counters.get l.batch.table) l.size)
    (hpace : l.attempted = true ↔
      h.commitFor l.batch.table ≤ addSaturating (a.counters.get l.batch.table) l.size) :
    b.CountsApart h (ls ++ [l]) := by
  rw [ha.total_eq] at hown hpace
  refine ⟨hp, hh, fun u => ?_, fun u => ?_⟩ <;> rw [Landing.on_concat] <;>
    by_cases hu : l.batch.table = u
  · subst hu
    rw [if_pos rfl, Landing.sinceAttempt_concat, hown]
    split <;> rfl
  · rw [if_neg hu, List.append_nil, hother u (Ne.symm hu), ha.counter]
  · subst hu
    rw [if_pos rfl]
    exact Landing.paced_concat.2 ⟨ha.paced _, hpace⟩
  · rw [if_neg hu, List.append_nil]
    exact ha.paced u

section

variable [Store σ κ]

def flushLandings (t : Table) (a : Accumulator σ κ) : List Landing :=
  (a.flushPosts t).map fun x => ⟨x, (a.flush t).1⟩

def landings (calls : List Call) (a : Accumulator σ κ) : List Landing :=
  gather flushLandings calls a

theorem map_batch_landings (calls : List Call) (a : Accumulator σ κ) :
    (a.landings calls).map Landing.batch = a.performAllPosts calls := by
  rw [landings, map_gather, ← gather_flushPosts]
  simp [flushLandings, Function.comp_def]

variable {a : Accumulator σ κ}

theorem counters_begin (hp : a.counters.policy = .perTable) (t : Table) :
    (a.begin t).2.counters = a.counters := by
  have hs := Counters.reset_switch hp
  unfold begin
  split
  · dsimp only
    split
    · exact hs
    · rfl
  · exact hs
  · exact hs
  · rfl

theorem counters_write (hp : a.counters.policy = .perTable) (t : Table) :
    (a.write t).2.counters = a.counters := by
  have h := counters_begin hp t
  unfold write
  generalize a.begin t = x at h ⊢
  obtain ⟨o, b⟩ := x
  cases o <;> exact h

/-- What a flush comes to where tables are counted apart. -/
inductive Lands (t : Table) (a : Accumulator σ κ) : FlushOutcome → Counters → List Batch → Prop
  | failed : Lands t a .failed a.counters []
  | flushed (rows : Nat)
    (h : addSaturating (a.counters.get t) (a.buffered t) < a.thresholds.commitFor t) :
    Lands t a (.flushed rows) (a.counters.add t (a.buffered t)) [a.buffers.batch t]
  | attempted {o : FlushOutcome} (rows : Nat) (ho : o = .committed rows ∨ o = .commitFailed rows)
    (h : a.thresholds.commitFor t ≤ addSaturating (a.counters.get t) (a.buffered t)) :
    Lands t a o ((a.counters.add t (a.buffered t)).reset (.threshold t)) [a.buffers.batch t]

theorem lands_flush (hp : a.counters.policy = .perTable) {t : Table} (ht : a.buffered t ≠ 0) :
    Lands t a (a.flush t).1 (a.flush t).2.counters (a.flushPosts t) := by
  have hc := counters_write hp t
  have hth := thresholds_write t a
  rcases hw : a.write t with ⟨e | rows, b⟩ <;> rw [hw] at hc hth <;> dsimp only at hc hth
  · rw [flushPosts_missed ht hw, flush_missed ht hw]
    have hm : (b.missed t (a.buffered t) e).counters = a.counters := hc
    rw [hm]
    exact .failed
  · rw [flushPosts_landed ht hw, flush_landed ht hw]
    have hl : (b.landed t (a.buffered t) rows).counters = a.counters.add t (a.buffered t) := by
      rw [← hc]
      rfl
    have hdue : (b.landed t (a.buffered t) rows).CommitDue t ↔
        a.thresholds.commitFor t ≤ addSaturating (a.counters.get t) (a.buffered t) := by
      rw [CommitDue, hl, Counters.get_add, if_pos rfl]
      exact hth ▸ Iff.rfl
    generalize b.landed t (a.buffered t) rows = c at hl hdue ⊢
    split
    · rename_i h
      rw [commit_counters, hl]
      exact .attempted rows (commit_cases t rows c) (hdue.1 h)
    · rename_i h
      rw [hl]
      exact .flushed rows (Nat.lt_of_not_le fun hn => h (hdue.2 hn))

theorem flushLandings_empty {t : Table} (ht : a.buffered t = 0) : a.flushLandings t = [] := by
  rw [flushLandings, flushPosts_empty ht]
  rfl

theorem CountsApart.flush {h : Thresholds} {ls : List Landing} (ha : a.CountsApart h ls)
    (t : Table) : (a.flush t).2.CountsApart h (ls ++ a.flushLandings t) := by
  by_cases ht : a.buffered t = 0
  · rw [flushLandings_empty ht, flush_empty ht, List.append_nil]
    exact ha
  have hx := lands_flush ha.policy ht
  have hh := (thresholds_flush t a).trans ha.thresholds
  have htable := a.buffers.table_batch t
  have hsize : (a.buffers.batch t).size = a.buffered t := Buffers.size_batch a.buffers t
  unfold flushLandings
  generalize (a.flush t).1 = o, a.flushPosts t = xs at hx ⊢
  generalize (a.flush t).2 = b at hx hh ⊢
  generalize hc : b.counters = c at hx
  cases hx with
  | failed =>
    rw [List.map_nil, List.append_nil]
    exact ⟨hc ▸ ha.policy, hh, hc ▸ ha.counter, ha.paced⟩
  | flushed rows hlt =>
    refine ha.land (hc ▸ ha.policy) hh (fun u hu => ?_) ?_ ?_
    · rw [hc, Counters.get_add, if_neg (htable ▸ hu)]
    · dsimp only
      rw [hc, htable, Counters.get_add, if_pos rfl, Landing.size, hsize]
      rfl
    · dsimp only
      rw [htable, Landing.size, hsize, ← ha.thresholds]
      exact iff_of_false Bool.false_ne_true (Nat.not_le.2 hlt)
  | attempted rows ho hle =>
    -- The counter starts anew even if the commit failed.
    have hp : (a.counters.add t (a.buffered t)).policy = .perTable := ha.policy
    have hatt : (⟨a.buffers.batch t, o⟩ : Landing).attempted = true := by
      obtain rfl | rfl := ho <;> rfl
    refine ha.land (by rw [hc, Counters.policy_reset, hp]) hh (fun u hu => ?_) ?_ ?_
    · have hut : u ≠ t := htable ▸ hu
      rw [hc, Counters.get_reset_other hp hut, Counters.get_add, if_neg hut]
    · rw [hatt, hc, htable, Counters.get_reset_threshold]
      rfl
    · dsimp only
      rw [htable, Landing.size, hsize, ← ha.thresholds]
      exact iff_of_true hatt hle

theorem gathers_countsApart (h : Thresholds) :
    Gathers flushLandings fun ls (a : Accumulator σ κ) => a.CountsApart h ls where
  author _ ha := ⟨ha.policy, ha.thresholds, ha.counter, ha.paced⟩
  element _ ha := ⟨ha.policy, ha.thresholds, ha.counter, ha.paced⟩
  flush t ha := ha.flush t

/-- Where tables are counted apart at the start, every run keeps them so. -/
theorem countsApart_performAll (store : σ) (h : Thresholds) (calls : List Call) :
    (performAll calls (new store h .perTable : Accumulator σ κ)).CountsApart h
      (landings calls (new store h .perTable)) := by
  have hnew : (new store h .perTable : Accumulator σ κ).CountsApart h [] :=
    ⟨rfl, rfl, fun t => Counters.get_new .perTable t, fun t => Landing.paced_nil (h.commitFor t)⟩
  exact (gathers_countsApart h).performAll calls hnew

theorem flushed_of_mem_landings {calls : List Call} {l : Landing} (hl : l ∈ a.landings calls)
    (h : l.attempted = false) : ∃ rows, l.outcome = .flushed rows := by
  obtain ⟨t, b, hl⟩ := exists_of_mem_gather _ hl
  unfold flushLandings flushPosts at hl
  generalize (b.flush t).1 = o at hl
  cases o with
  | empty | failed => simp at hl
  | flushed rows =>
    obtain rfl : l = _ := by simpa using hl
    exact ⟨rows, rfl⟩
  | committed rows | commitFailed rows =>
    obtain rfl : l = _ := by simpa using hl
    simp [Landing.attempted] at h

end

theorem countsApart_fresh (faults : List Fault) (h : Thresholds) (calls : List Call) :
    (performAll calls (fresh faults h .perTable)).CountsApart h
      (landings calls (fresh faults h .perTable)) :=
  countsApart_performAll _ h calls

theorem openTable?_ledger (s : FaultySession) : s.ledger.openTable? = s.openTable? := by
  obtain ⟨store, live, log⟩ := s
  cases live <;> rfl

/-- A flush that writes its buffer tries to commit just if the entries since the last attempt
reach the threshold. -/
theorem CountsApart.classifies {spared : List CallPoint} {a : FaultyAccumulator} {A : Account}
    {h : Thresholds} {ls : List Landing} (ha : a.CountsApart h ls) (hA : a.session.Keeps spared A)
    (hfair : A.Fair) (hk : .executeKeep ∈ spared) {t : Table} (hne : (a.flush t).1 ≠ .empty)
    (hnf : (a.flush t).1 ≠ .failed) :
    let total := addSaturating (Landing.sinceAttempt (Landing.on t ls)) (a.buffered t)
    let rows := (a.buffers.batch t).rows.length
    let b := (a.flush t).2
    if h.commitFor t ≤ total then
      ((a.flush t).1 = .committed rows ∨ (a.flush t).1 = .commitFailed rows) ∧
        b.session.openTable? = none ∧ b.counters.get t = 0
    else (a.flush t).1 = .flushed rows ∧ b.session.openTable? = some t ∧
      b.counters.get t = total := by
  have hx := lands_flush ha.policy (buffered_of_flush hne)
  rw [← ha.total_eq, ← ha.thresholds]
  generalize hc : (a.flush t).2.counters = c at hx
  generalize ho : (a.flush t).1 = o at hx hne hnf ⊢
  generalize a.flushPosts t = xs at hx
  cases hx with
  | failed => exact absurd rfl hnf
  | flushed rows hlt =>
    obtain ⟨hex, hcur, -⟩ := flush_flushed hA hfair hk ho
    dsimp only
    rw [if_neg (Nat.not_le.2 hlt), ← openTable?_ledger, hc, hex.rows_eq]
    exact ⟨rfl, Ledger.openTable?_eq hcur, by simp⟩
  | attempted rows hout hle =>
    dsimp only
    rw [if_pos hle, hc, Counters.get_reset_threshold]
    obtain rfl | rfl := hout
    · obtain ⟨hex, hlive, -⟩ := flush_committed hA hfair hk ho
      exact ⟨.inl (by rw [hex.rows_eq]), by rw [Session.openTable?, hlive]; rfl, rfl⟩
    · obtain ⟨hlive, e, -, hex, -⟩ := flush_commitFailed hA hfair hk ho
      exact ⟨.inr (by rw [hex.rows_eq]), by rw [Session.openTable?, hlive]; rfl, rfl⟩

/-- In every state that adding and flushing can reach under any faults that drop the batches they
strike, if a commit that is due resets the counter of its own table only: the batches written are
those executed. The counter of a table is the number of entries written to it since the last flush
of the table that tried to commit, whatever came to other tables. A flush that writes its buffer
tries to commit just if that number, its own entries included, reaches the threshold of the table;
the session is then closed and the counter zero. If not, the buffer is flushed and the transaction
stays open. So two runs whose flushes of a table have the same sizes try to commit at the same
flushes of that table, whatever they do otherwise. -/
theorem tables_counted_apart (faults : List Fault) (hf : Fault.Conforming faults)
    (thresholds : Thresholds) (calls : List Call) :
    let start := fresh faults thresholds .perTable
    let a := performAll calls start
    let ls := landings calls start
    a.session.store.inner.transactions.flatMap Transaction.batches =
        ls.map (fun l => l.batch.entry) ∧
      (∀ l ∈ ls, l.attempted = false → ∃ rows, l.outcome = .flushed rows) ∧
      (∀ t, a.counters.get t = min (Landing.sinceAttempt (Landing.on t ls)) maxUInt64 ∧
        Landing.Paced (thresholds.commitFor t) (Landing.on t ls)) ∧
      (∀ t, (a.flush t).1 ≠ .empty → (a.flush t).1 ≠ .failed →
        let total := addSaturating (Landing.sinceAttempt (Landing.on t ls)) (a.buffered t)
        let rows := (a.buffers.batch t).rows.length
        let b := (a.flush t).2
        if thresholds.commitFor t ≤ total then
          ((a.flush t).1 = .committed rows ∨ (a.flush t).1 = .commitFailed rows) ∧
            b.session.openTable? = none ∧ b.counters.get t = 0
        else (a.flush t).1 = .flushed rows ∧ b.session.openTable? = some t ∧
          b.counters.get t = total) ∧
      ∀ t faults', Fault.Conforming faults' → ∀ thresholds' calls',
        thresholds'.commitFor t = thresholds.commitFor t →
          let ls' := landings calls' (fresh faults' thresholds' .perTable)
          (Landing.on t ls').map Landing.size = (Landing.on t ls).map Landing.size →
            (Landing.on t ls').map Landing.attempted = (Landing.on t ls).map Landing.attempted := by
  have hC := countsApart_fresh faults thresholds calls
  obtain ⟨A, hA, hfair, hbatches⟩ := books_performAll
    (P := fun b => b.account.Fair ∧ b.account.batches = b.posted.map Batch.entry)
    (fun he h => ⟨Account.lasting_fair.entry he h.1, he.batches_eq h.2⟩) hf thresholds .perTable
    ⟨Account.fair_empty, rfl⟩ calls
  have hk : CallPoint.executeKeep ∈ [CallPoint.executeKeep] := List.mem_singleton.2 rfl
  refine ⟨?_, fun l hl => flushed_of_mem_landings hl, fun t => ⟨hC.counter t, hC.paced t⟩,
    fun t hne hnf => ?_, fun t faults' _ thresholds' calls' hth hsize => ?_⟩
  · have hb : (landings calls (fresh faults thresholds .perTable)).map (fun l => l.batch.entry) =
        (performAllPosts calls (fresh faults thresholds .perTable)).map Batch.entry := by
      rw [← map_batch_landings, List.map_map]
      rfl
    rw [Memory.transactions, hA.history_eq, hb]
    exact hbatches
  · exact hC.classifies hA hfair hk hne hnf
  · have hC' := countsApart_fresh faults' thresholds' calls'
    exact ((hth ▸ hC'.paced t).congr (hC.paced t) hsize).1

def nodeOf (id : Int) : Entity := .node ⟨id, {}, ⟨⟨0⟩, ⟨0⟩⟩, .empty⟩

def turningCalls : List Call :=
  [.add (nodeOf 1), .add (nodeOf 2), .flush .nodes, .add (wayOf 5 [1]), .flush .ways,
    .add (nodeOf 3), .add (nodeOf 4), .flush .nodes]

def steadyCalls : List Call :=
  [.add (nodeOf 1), .add (nodeOf 2), .flush .nodes, .add (nodeOf 3), .add (nodeOf 4), .flush .nodes]

/-- The nodes are lost when the session turns, and still they count: the second flush tries to
commit, as it does where nothing comes between. -/
theorem tables_counted_apart_turning :
    Fault.Conforming commitFaults ∧ Fault.Conforming [] ∧
      let start := fresh commitFaults handThresholds .perTable
      (performAll turningCalls start).report.failedCommits.get .nodes = 1 ∧
        (Landing.on .nodes (landings turningCalls start)).map Landing.attempted = [false, true] ∧
        (Landing.on .nodes (landings steadyCalls (fresh [] handThresholds .perTable))).map
          Landing.attempted = [false, true] := by
  have hf : Fault.Conforming commitFaults := by
    unfold Fault.Conforming
    decide
  have hturning : (Landing.on .nodes (landings turningCalls
      (fresh commitFaults handThresholds .perTable))).map Landing.attempted = [false, true] := by
    decide +kernel
  obtain ⟨-, -, -, -, hruns⟩ := tables_counted_apart commitFaults hf handThresholds turningCalls
  have hsteady := hruns .nodes [] nofun handThresholds steadyCalls rfl (by decide +kernel)
  exact ⟨hf, nofun, by decide +kernel, hturning, hsteady.trans hturning⟩

end Accumulator
end MapLoader
