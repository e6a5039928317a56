import MapLoader.Proofs.Session.Ledger

/-! A session refines a ledger. Whatever is called in whatever order, and whichever calls to the
store are struck, every operation is one step of a ledger of committed and open rows, and an
operation that has nothing to do leaves the store alone. -/

namespace MapLoader

namespace Session

/-- A call made to a session from outside. To renew is to give the session up and to start
another one on its store. -/
inductive Call
  | begin (t : Table)
  | switch (t : Table)
  | insert (b : Batch)
  | finish (commit : Bool)
  | renew
  deriving DecidableEq

inductive Answer
  | started (outcome : Except SessionError BatchStart)
  | inserted (outcome : Except SessionError Nat)
  | ended (outcome : Except SessionError Unit)
  | renewed

def Answer.error? : Answer → Option SessionError
  | .started (.error e) | .inserted (.error e) | .ended (.error e) => some e
  | .started (.ok _) | .inserted (.ok _) | .ended (.ok _) | .renewed => none

@[simp] theorem Answer.error?_started {o : Except SessionError BatchStart} {e : SessionError} :
    (Answer.started o).error? = some e ↔ o = .error e := by
  cases o <;> simp [error?]

@[simp] theorem Answer.error?_inserted {o : Except SessionError Nat} {e : SessionError} :
    (Answer.inserted o).error? = some e ↔ o = .error e := by
  cases o <;> simp [error?]

@[simp] theorem Answer.error?_ended {o : Except SessionError Unit} {e : SessionError} :
    (Answer.ended o).error? = some e ↔ o = .error e := by
  cases o <;> simp [error?]

section

variable {σ κ : Type} [Store σ κ]

def perform (s : Session σ κ) : Call → Answer × Session σ κ
  | .begin t => (.started (s.beginBatch t).1, (s.beginBatch t).2)
  | .switch t => (.started (s.switchTo t).1, (s.switchTo t).2)
  | .insert b => (.inserted (s.insert b).1, (s.insert b).2)
  | .finish commit => (.ended (s.endBatch commit).1, (s.endBatch commit).2)
  | .renew => (.renewed, { s.abandon with live := none })

def performAll (calls : List Call) (s : Session σ κ) : Session σ κ :=
  calls.foldl (fun s call => (s.perform call).2) s

/-- What a monitor sees across every call to a store, it sees across every call to a session. -/
theorem always_perform (M : Monitor σ) (s : Session σ κ) (call : Call) :
    M.always s.store (s.perform call).2.store := by
  cases call with
  | begin t => exact (sees_beginBatch M t s).always
  | switch t => exact (sees_switchTo M t s).always
  | insert b => exact (sees_insert M b s).always
  | finish commit => exact (sees_endBatch M commit s).always
  | renew => exact always_abandon M s

end

end Session

namespace Ledger

/-- Leaving the open transaction, if there is one, for a new one on the table. -/
inductive Switch (t : Table) (l : Ledger) : Except SessionError Session.BatchStart → Ledger → Prop
  | opened (h : l.current = none) : Switch t l (.ok {}) (l.opened t)
  | refused (e : StoreError) (h : l.current = none) : Switch t l (.error (.connection e)) l
  | turned {u : Table} {rows : List Row} (h : l.current = some (u, rows)) :
    Switch t l (.ok ⟨true⟩) (l.settled.opened t)
  /-- The rows of the transaction that was open are lost. -/
  | lost (e : StoreError) {u : Table} {rows : List Row} (h : l.current = some (u, rows)) :
    Switch t l (.error (.switchCommit u t e)) l.voided
  /-- The rows of the transaction that was open are committed, and none is open. -/
  | stranded (e : StoreError) {u : Table} {rows : List Row} (h : l.current = some (u, rows)) :
    Switch t l (.error (.switchOpen u t e)) l.settled

/-- One call to a session, seen from the ledger. -/
inductive Step (l : Ledger) : Session.Call → Session.Answer → Ledger → Prop
  | stays {t : Table} {rows : List Row} (h : l.current = some (t, rows)) :
    Step l (.begin t) (.started (.ok {})) l
  | begins {t : Table} {o : Except SessionError Session.BatchStart} {l' : Ledger}
    (h : l.openTable? ≠ some t) (h' : Switch t l o l') : Step l (.begin t) (.started o) l'
  | switches {t : Table} {o : Except SessionError Session.BatchStart} {l' : Ledger}
    (h : Switch t l o l') : Step l (.switch t) (.started o) l'
  /-- All rows of the batch are in the transaction. -/
  | posted {b : Batch} (h : l.openTable? = some b.table) :
    Step l (.insert b) (.inserted (.ok b.rows.length)) (l.posted b.rows)
  /-- No row of the batch is in the transaction, which stays open. -/
  | spoiled {b : Batch} (e : StoreError) (h : l.openTable? = some b.table) :
    Step l (.insert b) (.inserted (.error (.batch b.table e))) l
  | astray {b : Batch} (h : l.openTable? ≠ some b.table) :
    Step l (.insert b) (.inserted (.error (.illegalState b.table l.openTable?))) l
  | idle (commit : Bool) (h : l.current = none) : Step l (.finish commit) (.ended (.ok ())) l
  | settled (h : l.current ≠ none) : Step l (.finish true) (.ended (.ok ())) l.settled
  | unsettled (e : StoreError) (h : l.current ≠ none) :
    Step l (.finish true) (.ended (.error (.connection e))) l.voided
  | voided (o : Except StoreError Unit) (h : l.current ≠ none) :
    Step l (.finish false) (.ended (o.mapError .connection)) l.voided
  | renewed : Step l .renew .renewed l.voided

/-- The calls that have nothing to do. -/
def Silent (l : Ledger) : Session.Call → Prop
  | .begin t => l.openTable? = some t
  | .switch _ => False
  | .insert b => l.openTable? ≠ some b.table
  | .finish _ => l.openTable? = none
  | .renew => l.openTable? = none

end Ledger

namespace Account

variable {closing : Prop} {t : Table} {a b : Account}

theorem Opens.toLedger_eq {e : StoreError} (h : Opens t a (.error e) b) :
    b.toLedger = a.toLedger := by
  cases h <;> rfl

theorem Turns.switch {o : Except SessionError Session.BatchStart} (h : Turns closing t a o b)
    (hc : ¬ closing) : Ledger.Switch t a.toLedger o b.toLedger := by
  cases h with
  | opened h => exact .opened h
  | refused e h h' => rw [h'.toLedger_eq]; exact .refused e h
  | turned h => exact .turned h
  | lost e h => exact .lost e h
  | settledLate e h h' => exact absurd h' hc
  | stranded e h h' => rw [h'.toLedger_eq]; exact .stranded e h

theorem Begins.step {o : Except SessionError Session.BatchStart} (h : Begins closing t a o b)
    (hc : ¬ closing) : a.toLedger.Step (.begin t) (.started o) b.toLedger := by
  cases h with
  | stays h => exact .stays h
  | turns h h' => exact .begins h (h'.switch hc)

theorem Takes.step {x : Batch} {o : Except SessionError Nat} (h : Takes x a o b)
    (ha : a.openTable? = some x.table) : a.toLedger.Step (.insert x) (.inserted o) b.toLedger := by
  cases h with
  | posted => exact .posted ha
  | spoiled e => exact .spoiled e ha

theorem Ends.step {commit : Bool} {o : Except StoreError Unit} (h : Ends closing a commit o b)
    (hc : ¬ closing) :
    a.toLedger.Step (.finish commit) (.ended (o.mapError .connection)) b.toLedger := by
  cases h with
  | idle _ h => exact .idle commit h
  | settled h => exact .settled h
  | settledLate e h h' => exact absurd h' hc
  | lost e h => exact .unsettled e h
  | voided o h => exact .voided o h

end Account

namespace Session

variable {spared : List CallPoint} {s : FaultySession} {a : Account}

/-- What a call does to a session that keeps an account: it makes entries there that are one step
of the ledger, and it fails only if it was struck or is out of place. -/
theorem keeps_perform (hk : .executeKeep ∈ spared) (hc : .close ∈ spared) (h : s.Keeps spared a)
    (call : Call) :
    (∃ b, (s.perform call).2.Keeps spared b ∧
        a.toLedger.Step call (s.perform call).1 b.toLedger) ∧
      ∀ e, (s.perform call).1.error? = some e →
        (∃ t, e = .illegalState t a.openTable?) ∨
          s.store.strikes < (s.perform call).2.store.strikes := by
  have hn : ¬ CallPoint.close ∉ spared := fun hn => hn hc
  cases call with
  | begin t =>
    obtain ⟨⟨b, hb, he⟩, hs⟩ := enters_beginBatch h t
    exact ⟨⟨b, hb, he.step hn⟩, fun e heq => .inr (hs e (Answer.error?_started.1 heq))⟩
  | switch t =>
    obtain ⟨⟨b, hb, he⟩, hs⟩ := enters_switchTo h t
    exact ⟨⟨b, hb, .switches (he.switch hn)⟩,
      fun e heq => .inr (hs e (Answer.error?_started.1 heq))⟩
  | insert b =>
    by_cases ht : a.openTable? = some b.table
    · obtain ⟨⟨d, hd, he⟩, hs⟩ := enters_insert h hk ht
      exact ⟨⟨d, hd, he.step ht⟩, fun e heq => .inr (hs e (Answer.error?_inserted.1 heq))⟩
    · have hi : s.insert b = (.error (.illegalState b.table a.openTable?), s) := by
        rw [← h.openTable?_eq] at ht ⊢
        exact insert_astray ht
      simp only [perform, hi]
      refine ⟨⟨a, h, .astray ht⟩, fun e heq => ?_⟩
      have he := Except.error.inj (Answer.error?_inserted.1 heq)
      exact .inl ⟨b.table, he.symm⟩
  | finish commit =>
    obtain ⟨⟨b, hb, o, ho, he⟩, hs⟩ := enters_endBatch h commit
    refine ⟨⟨b, hb, ?_⟩, fun e heq => .inr (hs e (Answer.error?_ended.1 heq))⟩
    have hstep := he.step hn
    rw [← ho] at hstep
    exact hstep
  | renew =>
    have hb := h.abandon
    have he : (s.perform .renew).2 = s.abandon := (hb.eq_of_closed rfl).symm
    rw [he]
    exact ⟨⟨_, hb, .renewed⟩, fun e heq => by simp [perform, Answer.error?] at heq⟩

theorem keeps_performAll (hk : .executeKeep ∈ spared) (hc : .close ∈ spared) (h : s.Keeps spared a)
    (calls : List Call) : ∃ b, (s.performAll calls).Keeps spared b := by
  induction calls generalizing s a with
  | nil => exact ⟨a, h⟩
  | cons call calls ih =>
    obtain ⟨⟨b, hb, -⟩, -⟩ := keeps_perform hk hc h call
    exact ih hb

theorem perform_silent (h : s.Keeps spared a) {call : Call} (hs : a.Silent call) :
    (s.perform call).2 = s := by
  have ht := h.openTable?_eq
  cases call with
  | begin t => exact congrArg Prod.snd (beginBatch_stays (ht.trans hs))
  | switch t => exact hs.elim
  | insert b => exact congrArg Prod.snd (insert_astray (ht ▸ hs))
  | finish commit =>
    exact congrArg Prod.snd (endBatch_idle (h.released (Option.map_eq_none_iff.1 hs)).1 commit)
  | renew =>
    have hl : s = { s with live := none } := h.eq_of_closed (Option.map_eq_none_iff.1 hs)
    rw [hl]
    rfl

/-- Every call to a session is a step of the ledger of committed and open rows, after any calls
and whichever calls to the store are struck, so long as no fault aims at closing a connection and
a batch that fails is dropped. A call with nothing to do leaves everything as it is. A call that
fails was struck, unless it offers rows out of place. -/
theorem perform_refines_ledger (faults : List Fault)
    (hf : ∀ f ∈ faults, f.point ≠ .close ∧ f.point ≠ .executeKeep) (calls : List Call)
    (call : Call) :
    (fresh faults).ledger = {} ∧
      let s := (fresh faults).performAll calls
      s.ledger.Step call (s.perform call).1 (s.perform call).2.ledger ∧
        (s.ledger.Silent call → (s.perform call).2 = s) ∧
        ∀ e, (s.perform call).1.error? = some e →
          (∃ t, e = .illegalState t s.ledger.openTable?) ∨
            s.store.strikes < (s.perform call).2.store.strikes := by
  have hfresh : (fresh faults).Keeps [.executeKeep, .close] ⟨{}, []⟩ := by
    refine keeps_fresh fun p hp f hmem => ?_
    rcases List.mem_cons.1 hp with rfl | hp
    · exact (hf f hmem).2
    · rw [List.mem_singleton.1 hp]
      exact (hf f hmem).1
  have hk : CallPoint.executeKeep ∈ [CallPoint.executeKeep, .close] := by simp
  have hc : CallPoint.close ∈ [CallPoint.executeKeep, .close] := by simp
  obtain ⟨a, ha⟩ := keeps_performAll hk hc hfresh calls
  obtain ⟨⟨b, hb, hstep⟩, hfail⟩ := keeps_perform hk hc ha call
  refine ⟨hfresh.ledger_eq, ?_⟩
  generalize (fresh faults).performAll calls = s at ha hb hstep hfail ⊢
  dsimp only
  rw [ha.ledger_eq, hb.ledger_eq]
  exact ⟨hstep, perform_silent ha, hfail⟩

def roughFaults : List Fault :=
  [{ point := .addRow, skip := 1, times := some 1 }, { point := .commit }]

def memberCalls : List Call :=
  [.begin .wayNodes, .insert (.wayNodes [(2, [1, 4])]), .insert (.wayNodes [(2, [1, 4])])]

theorem perform_refines_ledger_rough :
    (∀ f ∈ roughFaults, f.point ≠ .close ∧ f.point ≠ .executeKeep) ∧
      (fresh roughFaults).ledger = {} ∧
      let s := (fresh roughFaults).performAll memberCalls
      s.ledger.Step (.switch .ways) (s.perform (.switch .ways)).1
          (s.perform (.switch .ways)).2.ledger ∧
        (s.ledger.Silent (.switch .ways) → (s.perform (.switch .ways)).2 = s) ∧
        ∀ e, (s.perform (.switch .ways)).1.error? = some e →
          (∃ t, e = .illegalState t s.ledger.openTable?) ∨
            s.store.strikes < (s.perform (.switch .ways)).2.store.strikes :=
  ⟨by decide, perform_refines_ledger roughFaults (by decide) memberCalls (.switch .ways)⟩

end Session
end MapLoader
