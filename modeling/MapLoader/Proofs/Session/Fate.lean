import MapLoader.Proofs.Session.Refinement

/-! What becomes of a transaction that a session leaves for another one. Its rows are committed
together and for good, or never, and the answer to the call that left it says which. -/

namespace MapLoader

namespace Account

/-- The open transaction is over, and its rows are kept or not. -/
def parted (kept : Bool) (a : Account) : Account := if kept then a.settled else a.voided

@[simp] theorem current_parted (kept : Bool) (a : Account) : (a.parted kept).current = none := by
  cases kept <;> rfl

/-- These are the oldest transactions, and a transaction that is open is not among them. -/
def Past (old : List Transaction) (a : Account) : Prop :=
  ∃ recent, a.history = recent ++ old ∧ (a.current ≠ none → recent ≠ [])

theorem lasting_past (old : List Transaction) : Lasting (Past old) where
  opened t _ h := by
    obtain ⟨recent, hr, -⟩ := h
    exact ⟨{} :: recent, by simp [hr], by simp⟩
  attempted _ h := by
    obtain ⟨recent, hr, -⟩ := h
    exact ⟨{} :: recent, by simp [hr], by simp⟩
  settled hx h := by
    obtain ⟨recent, hr, hne⟩ := h
    obtain ⟨x, rest, rfl⟩ := List.exists_cons_of_ne_nil (hne (by simp [hx]))
    exact ⟨x.settle :: rest, by simp [hr], by simp⟩
  voided h := by
    obtain ⟨recent, hr, -⟩ := h
    exact ⟨recent, hr, fun hc => absurd rfl hc⟩
  posted {a t rows} more hx h := by
    obtain ⟨recent, hr, hne⟩ := h
    obtain ⟨x, rest, rfl⟩ := List.exists_cons_of_ne_nil (hne (by simp [hx]))
    exact ⟨x.post t more :: rest, by simp [hr], by simp⟩

theorem Lasting.and {P Q : Account → Prop} (hp : Lasting P) (hq : Lasting Q) :
    Lasting fun a => P a ∧ Q a where
  opened t ha h := ⟨hp.opened t ha h.1, hq.opened t ha h.2⟩
  attempted ha h := ⟨hp.attempted ha h.1, hq.attempted ha h.2⟩
  settled ha h := ⟨hp.settled ha h.1, hq.settled ha h.2⟩
  voided h := ⟨hp.voided h.1, hq.voided h.2⟩
  posted more ha h := ⟨hp.posted more ha h.1, hq.posted more ha h.2⟩

/-- The open transaction, once it is over, with the rows it holds. -/
theorem Fair.parted {a : Account} {t : Table} {rows : List Row} (h : a.Fair)
    (ha : a.current = some (t, rows)) (kept : Bool) :
    (a.parted kept).Fair ∧ ∃ x past, a.history.length = past.length + 1 ∧
      (a.parted kept).history = x :: past ∧ x.rows t = rows ∧ x.committed = kept := by
  obtain ⟨x, past, hx, hxc, -, hxr⟩ := h.current ha
  have hl : a.history.length = past.length + 1 := by simp [hx]
  cases kept with
  | true => exact ⟨h.settled ha, x.settle, past, hl, by simp [Account.parted, hx], hxr, rfl⟩
  | false => exact ⟨lasting_fair.voided h, x, past, hl, by simp [Account.parted, hx], hxr, hxc⟩

end Account

namespace Session

variable {spared : List CallPoint} {s : FaultySession} {a : Account}

theorem lasting_perform {P : Account → Prop} (L : Account.Lasting P) (hk : .executeKeep ∈ spared)
    (h : s.Keeps spared a) (hp : P a) (call : Call) :
    ∃ b, (s.perform call).2.Keeps spared b ∧ P b := by
  cases call with
  | begin t =>
    obtain ⟨⟨b, hb, he⟩, -⟩ := enters_beginBatch h t
    exact ⟨b, hb, L.begins hp he⟩
  | switch t =>
    obtain ⟨⟨b, hb, he⟩, -⟩ := enters_switchTo h t
    exact ⟨b, hb, L.turns hp he⟩
  | insert x =>
    by_cases hx : a.openTable? = some x.table
    · obtain ⟨⟨b, hb, he⟩, -⟩ := enters_insert h hk hx
      exact ⟨b, hb, L.takes hx hp he⟩
    · have hi : (s.perform (.insert x)).2 = s := perform_silent h hx
      exact ⟨a, hi.symm ▸ h, hp⟩
  | finish commit =>
    obtain ⟨⟨b, hb, o, -, he⟩, -⟩ := enters_endBatch h commit
    exact ⟨b, hb, L.ends hp he⟩
  | renew =>
    have hb := h.abandon
    have he : (s.perform .renew).2 = s.abandon := (hb.eq_of_closed rfl).symm
    exact ⟨a.voided, he.symm ▸ hb, L.voided hp⟩

theorem lasting_performAll {P : Account → Prop} (L : Account.Lasting P)
    (hk : .executeKeep ∈ spared) (h : s.Keeps spared a) (hp : P a) (calls : List Call) :
    ∃ b, (s.performAll calls).Keeps spared b ∧ P b := by
  induction calls generalizing s a with
  | nil => exact ⟨a, h, hp⟩
  | cons call calls ih =>
    obtain ⟨b, hb, hp⟩ := lasting_perform L hk h hp call
    exact ih hb hp

/-- Whatever is called from here on, transaction number `n` holds these rows of a table, and it is
committed or not as is said. The tables hold the rows of the committed transactions. -/
def Decided (s : FaultySession) (n : Nat) (t : Table) (rows : List Row) (kept : Bool) : Prop :=
  ∀ later : List Call, let m := (s.performAll later).store.inner
    (∃ x, m.transactions[n]? = some x ∧ x.rows t = rows ∧ x.committed = kept) ∧
      ∀ u, (m.committed.get u).toList =
        (m.transactions.filter Transaction.committed).flatMap (Transaction.rows u)

theorem Keeps.decided (h : s.Keeps spared a) (hk : .executeKeep ∈ spared) (hfair : a.Fair)
    {x : Transaction} {past : List Transaction} (hp : a.Past (x :: past)) (t : Table) :
    s.Decided past.length t (x.rows t) x.committed := by
  intro later
  obtain ⟨b, hb, hbf, recent, hr, -⟩ :=
    lasting_performAll (Account.lasting_fair.and (Account.lasting_past _)) hk h ⟨hfair, hp⟩ later
  have hm : (s.performAll later).store.inner.transactions =
      past.reverse ++ x :: recent.reverse := by
    rw [Memory.transactions, hb.history_eq, hr]
    simp
  refine ⟨⟨x, ?_, rfl, rfl⟩, fun u => ?_⟩
  · rw [hm, List.getElem?_append_right (by simp)]
    simp
  · rw [hb.committed_eq, hbf.committed u, Memory.transactions, hb.history_eq]

/-- What the answer says of the rows of the transaction on `p` that was left for one on `t`:
whether they are kept. An error that is about closing comes after a commit that took effect. -/
inductive Tells (p t : Table) : Except SessionError BatchStart → Bool → Prop
  | turned : Tells p t (.ok ⟨true⟩) true
  | switchOpen (e : StoreError) : Tells p t (.error (.switchOpen p t e)) true
  | switchCommit (e : StoreError) :
    Tells p t (.error (.switchCommit p t e)) (e.operation = .close)

/-- Leaving an open transaction: it is settled or lost as the answer tells, and then another one
is opened or not. -/
theorem parts_switchTo (h : s.Keeps spared a) {p : Table} {rows : List Row}
    (ha : a.current = some (p, rows)) (t : Table) :
    ∃ kept o b, Tells p t (s.switchTo t).1 kept ∧ (s.switchTo t).2.Keeps spared b ∧
      Account.Opens t (a.parted kept) o b := by
  have hn : s.openTable? = some p := h.openTable?_eq.trans (Ledger.openTable?_eq ha)
  have hx := endTransaction_settles h (by simp [ha])
  unfold switchTo
  rw [hn]
  dsimp only
  generalize s.endTransaction true = y at hx ⊢
  obtain ⟨o, v⟩ := y
  dsimp only at hx
  obtain ⟨rfl, hk⟩ | ⟨-, ⟨rfl, -, hk⟩ | ⟨rfl, hk⟩⟩ := hx
  · obtain ⟨⟨d, hd, ho⟩, -⟩ := enters_openFor (hk.tell (.switched p t)) rfl t
    dsimp only
    generalize (v.tell (.switched p t)).openFor t = z at hd ho ⊢
    obtain ⟨o, w⟩ := z
    cases o with
    | ok => exact ⟨true, _, d, .turned, hd, ho⟩
    | error e => exact ⟨true, _, d, .switchOpen e, hd, ho⟩
  · exact ⟨true, _, a.settled, .switchCommit (.injected .close), hk, .refused (.injected .close)⟩
  · exact ⟨false, _, a.voided, .switchCommit (.injected .commit), hk, .refused (.injected .commit)⟩

theorem decided_switchTo (h : s.Keeps spared a) (hk : .executeKeep ∈ spared) (hfair : a.Fair)
    {p : Table} {rows : List Row} (ha : a.current = some (p, rows)) (t : Table) :
    ∃ kept, Tells p t (s.switchTo t).1 kept ∧
      (s.switchTo t).2.Decided (s.store.inner.transactions.length - 1) p rows kept := by
  obtain ⟨kept, o, b, htell, hb, ho⟩ := parts_switchTo h ha t
  obtain ⟨hf, x, past, hl, hx, rfl, rfl⟩ := hfair.parted ha kept
  have hpast : (a.parted x.committed).Past (x :: past) := ⟨[], hx, by simp⟩
  have L := Account.lasting_fair.and (Account.lasting_past (x :: past))
  obtain ⟨hbf, hbp⟩ := L.opens (Account.current_parted _ a) ⟨hf, hpast⟩ ho
  have hn : s.store.inner.transactions.length - 1 = past.length := by
    rw [Memory.transactions, List.length_reverse, h.history_eq, hl]
    rfl
  rw [hn]
  exact ⟨_, htell, hb.decided hk hbf hbp p⟩

/-- From a transaction that is open, whatever calls and faults came before: if turning to a table
succeeds with the transaction before it committed, or fails because no other one can be opened,
the rows that were open are committed for good. If it fails in committing, they are committed for
good if the call that failed was the one that closes the connection, and otherwise never. -/
theorem switch_tells_fate (faults : List Fault) (hf : Fault.Conforming faults) (calls : List Call)
    {p : Table} {rows : List Row}
    (hopen : ((fresh faults).performAll calls).ledger.current = some (p, rows)) (t : Table)
    {call : Call} (hcall : call = .begin t ∨ call = .switch t) :
    let s := (fresh faults).performAll calls
    let answer := (s.perform call).1
    let fate := (s.perform call).2.Decided (s.store.inner.transactions.length - 1) p rows
    (answer = .started (.ok ⟨true⟩) → fate true) ∧
      (∀ u v e, answer = .started (.error (.switchOpen u v e)) → u = p ∧ v = t ∧ fate true) ∧
      ∀ u v e, answer = .started (.error (.switchCommit u v e)) →
        u = p ∧ v = t ∧ fate (e.operation = .close) := by
  have hk : CallPoint.executeKeep ∈ [CallPoint.executeKeep] := List.mem_singleton.2 rfl
  obtain ⟨a, ha, hfair⟩ := lasting_performAll Account.lasting_fair hk (keeps_conforming hf)
    Account.fair_empty calls
  generalize (fresh faults).performAll calls = s at hopen ha ⊢
  rw [ha.ledger_eq] at hopen
  obtain ⟨kept, htell, hd⟩ := decided_switchTo ha hk hfair hopen t
  have hstart : (s.perform call).1 = .started (.ok {}) ∨
      s.perform call = (.started (s.switchTo t).1, (s.switchTo t).2) := by
    rcases hcall with rfl | rfl
    · by_cases ht : s.openTable? = some t
      · exact .inl (by simp [perform, beginBatch_stays ht])
      · exact .inr (by simp [perform, beginBatch_eq_switchTo ht])
    · exact .inr rfl
  dsimp only
  rcases hstart with he | he
  · rw [he]
    exact ⟨fun h => (by cases h), fun _ _ _ h => (by cases h), fun _ _ _ h => (by cases h)⟩
  · rw [he]
    dsimp only
    refine ⟨fun h => ?_, fun u v e h => ?_, fun u v e h => ?_⟩
    all_goals
      rw [Answer.started.inj h] at htell
      cases htell
    · exact hd
    · exact ⟨rfl, rfl, hd⟩
    · exact ⟨rfl, rfl, hd⟩

def closingFaults : List Fault := [{ point := .close, times := some 1 }]

theorem conforming_closingFaults : Fault.Conforming closingFaults := by
  unfold Fault.Conforming
  decide

def listCalls : List Call := [.begin .wayNodes, .insert (.wayNodes [(2, [1])])]

def listRow : Row := WayNode.row ⟨2, 1, 0⟩

theorem current_listCalls : ((fresh closingFaults).performAll listCalls).ledger.current =
    some (.wayNodes, [listRow]) := by decide +kernel

theorem switch_tells_fate_closing :
    Fault.Conforming closingFaults ∧
      let s := (fresh closingFaults).performAll listCalls
      s.ledger.current = some (.wayNodes, [listRow]) ∧
        (s.perform (.begin .nodes)).1 =
          .started (.error (.switchCommit .wayNodes .nodes (.injected .close))) ∧
        (s.perform (.begin .nodes)).2.Decided 0 .wayNodes [listRow] true := by
  have hfate := (switch_tells_fate closingFaults conforming_closingFaults listCalls
    current_listCalls .nodes (.inl rfl)).2.2 .wayNodes .nodes (.injected .close) rfl
  exact ⟨conforming_closingFaults, current_listCalls, rfl, hfate.2.2⟩

/-- An answer that the commit before a switch failed does not mean that the rows are lost. -/
theorem failed_switch_keeps_rows : ¬ ∀ (faults : List Fault), Fault.Conforming faults →
    ∀ (calls : List Call) (p : Table) (rows : List Row) (t : Table) (e : StoreError),
      let s := (fresh faults).performAll calls
      s.ledger.current = some (p, rows) →
        (s.perform (.begin t)).1 = .started (.error (.switchCommit p t e)) →
        (s.perform (.begin t)).2.Decided (s.store.inner.transactions.length - 1) p rows false := by
  intro h
  obtain ⟨⟨x, hx, -, hlost⟩, -⟩ := h closingFaults conforming_closingFaults listCalls .wayNodes
    [listRow] .nodes (.injected .close) current_listCalls rfl []
  have hkept : x = ⟨[(.wayNodes, [listRow])], true⟩ := Option.some.inj hx.symm
  rw [hkept] at hlost
  cases hlost

end Session
end MapLoader
