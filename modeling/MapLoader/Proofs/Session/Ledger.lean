import MapLoader.Proofs.Session.Account
import MapLoader.Proofs.Session.Monitor
import MapLoader.Proofs.Store.Accounts

/-! The session as a bookkeeper. Over a store in memory with faults every operation makes one
entry in the account of the session, whichever of its calls are struck, and an operation that
fails was struck. -/

namespace MapLoader

abbrev FaultySession := Session (Faulty Memory) (Faulty.Connection Memory.Connection)

namespace Session

section

variable {σ κ : Type} [Store σ κ]

/-- Beginning a batch for the open table makes no call. -/
theorem beginBatch_stays {s : Session σ κ} {t : Table} (h : s.openTable? = some t) :
    s.beginBatch t = (.ok {}, s) := by
  unfold beginBatch
  rw [h]
  exact if_pos rfl

theorem beginBatch_eq_switchTo {s : Session σ κ} {t : Table} (h : s.openTable? ≠ some t) :
    s.beginBatch t = s.switchTo t := by
  unfold beginBatch switchTo
  split
  · rfl
  · rename_i previous hp
    rw [if_neg fun he => h (hp.trans (congrArg some he))]

/-- Rows for a table that is not open are refused without a call. -/
theorem insert_astray {s : Session σ κ} {b : Batch} (h : s.openTable? ≠ some b.table) :
    s.insert b = (.error (.illegalState b.table s.openTable?), s) := by
  obtain ⟨store, live, log⟩ := s
  cases live with
  | none => rfl
  | some l => exact if_neg fun he => h (congrArg some he)

end

/-- The ledger as the store and the connection show it. -/
def ledger (s : FaultySession) : Ledger where
  committed t := (s.store.inner.committed.get t).toList
  current := s.live.map fun l => (l.table, l.connection.inner.uncommitted.toList.map Prod.snd)

/-- Between its operations a session keeps an account: the store shows it and, if a transaction
is open, so does its connection, and no row waits there. -/
inductive Keeps (spared : List CallPoint) : FaultySession → Account → Prop
  | closed {store : Faulty Memory} {past : List Transaction} {committed : Table → List Row}
    (log : Array Notice) (h : store.Shows spared 0 past committed) :
    Keeps spared ⟨store, none, log⟩ ⟨⟨committed, none⟩, past⟩
  | live {store : Faulty Memory} {past : List Transaction} {committed : Table → List Row}
    {t : Table} {rows : List Row} {c : Faulty.Connection Memory.Connection} (log : Array Notice)
    (h : store.Shows spared 1 past committed) (hc : c.inner.Holds t rows []) :
    Keeps spared ⟨store, some ⟨t, c⟩, log⟩ ⟨⟨committed, some (t, rows)⟩, past⟩

/-- An operation makes the entry that the relation allows; if it fails, a call was struck. -/
def Enters {ε α : Type} (spared : List CallPoint) (R : Except ε α → Account → Prop)
    (s : FaultySession) (r : Except ε α × FaultySession) : Prop :=
  (∃ a, r.2.Keeps spared a ∧ R r.1 a) ∧ ∀ e, r.1 = .error e → s.store.strikes < r.2.store.strikes

variable {spared : List CallPoint} {s : FaultySession} {a : Account}

theorem Enters.ok {ε α : Type} {R : Except ε α → Account → Prop} {x : α} {u : FaultySession}
    {b : Account} (h : u.Keeps spared b) (hr : R (.ok x) b) : s.Enters spared R (.ok x, u) :=
  ⟨⟨b, h, hr⟩, nofun⟩

theorem Enters.error {ε α : Type} {R : Except ε α → Account → Prop} {e : ε} {u : FaultySession}
    {b : Account} (h : u.Keeps spared b) (hr : R (.error e) b)
    (hs : s.store.strikes < u.store.strikes) : s.Enters spared R (.error e, u) :=
  ⟨⟨b, h, hr⟩, fun _ _ => hs⟩

theorem Keeps.tell (h : s.Keeps spared a) (n : Notice) : (s.tell n).Keeps spared a := by
  cases h with
  | closed log h => exact .closed _ h
  | live log h hc => exact .live _ h hc

theorem Keeps.ledger_eq (h : s.Keeps spared a) : s.ledger = a.toLedger := by
  cases h with
  | closed log h => exact congrArg (Ledger.mk · none) (funext h.committed)
  | live log h hc =>
    simp [ledger, hc.rows, funext h.committed]

theorem Keeps.history_eq (h : s.Keeps spared a) : s.store.inner.history = a.history := by
  cases h with
  | closed log h => exact h.history
  | live log h hc => exact h.history

theorem Keeps.batches_eq (h : s.Keeps spared a) : s.store.inner.batches = a.batches := by
  rw [← Memory.flatMap_batches, Memory.transactions, h.history_eq]
  rfl

theorem Keeps.executed_eq (h : s.Keeps spared a) (t : Table) :
    s.store.inner.executed t = a.executed t := by
  rw [Memory.executed_eq, h.batches_eq, Account.executed_eq]
  rfl

theorem Keeps.committed_eq (h : s.Keeps spared a) (t : Table) :
    (s.store.inner.committed.get t).toList = a.committed t :=
  congrFun (congrArg Ledger.committed h.ledger_eq) t

/-- The latest transaction, as the journal of the store has it. -/
theorem Keeps.getLast?_eq (h : s.Keeps spared a) :
    s.store.inner.transactions.getLast? = a.history.head? := by
  rw [Memory.transactions, h.history_eq, List.getLast?_reverse]

section

variable {store : Faulty Memory} {past : List Transaction} {committed : Table → List Row}
  {t : Table} {rows : List Row} {c : Faulty.Connection Memory.Connection}

theorem enters_openFor (h : s.Keeps spared a) (ha : a.current = none) (t : Table) :
    s.Enters spared (Account.Opens t a) (s.openFor t) := by
  cases h with
  | live log h hc => cases ha
  | closed log h =>
    unfold openFor
    dsimp only
    rcases Faulty.connect_shows h with ⟨s₁, he, hs, h₁⟩ | ⟨e, s₁, he, hs, h₁⟩ <;> rw [he]
    · rcases Faulty.prepare_shows h₁ (c := ⟨none, {}⟩) rfl t with
        ⟨c, s₂, he, -, h₂, hc⟩ | ⟨e, c, s₂, he, hs', h₂⟩ <;> dsimp only <;> rw [he]
      · exact .ok (.live _ h₂ hc) .opened
      · rcases Faulty.close_shows h₂ (c := c) with
          ⟨s₃, he, hs'', h₃⟩ | ⟨s₃, he, -, hs'', h₃⟩ <;> dsimp only <;> rw [he]
        · exact .error (.closed _ h₃) (.attempted e) (hs ▸ hs''.symm ▸ hs')
        · exact .error (.closed _ h₃) (.attempted e) (hs ▸ Nat.lt_trans hs' hs'')
    · exact .error (.closed _ h₁) (.refused e) hs

theorem rollbackFailed_shows (h : store.Shows spared 1 past committed) (t : Table) (e : StoreError)
    (c : Faulty.Connection Memory.Connection) (log : Array Notice) :
    ∃ c' store' log', rollbackFailed t e c ⟨store, none, log⟩ = (c', ⟨store', none, log'⟩) ∧
      store.strikes ≤ store'.strikes ∧ store'.Shows spared 1 past committed := by
  obtain ⟨o, c', s₁, he, hs, -, h₁⟩ := Faulty.rollback_shows h (c := c)
  unfold rollbackFailed
  dsimp only [tell]
  rw [he]
  cases o with
  | ok => exact ⟨_, _, _, rfl, hs, h₁⟩
  | error e' => exact ⟨_, _, _, rfl, hs, h₁⟩

/-- Releasing a connection gives the outcome of its transaction, unless closing it fails after a
transaction that ended well. -/
theorem release_shows (h : store.Shows spared 1 past committed) (t : Table)
    (outcome : Except StoreError Unit) (c : Faulty.Connection Memory.Connection)
    (log : Array Notice) :
    ∃ o store' log', release t outcome c ⟨store, none, log⟩ = (o, ⟨store', none, log'⟩) ∧
      store.strikes ≤ store'.strikes ∧ store'.Shows spared 0 past committed ∧
      (o = outcome ∨ outcome = .ok () ∧ o = .error (.injected .close) ∧ .close ∉ spared ∧
        store.strikes < store'.strikes) := by
  unfold release
  rcases Faulty.close_shows h (c := c) with ⟨s₁, he, hs, h₁⟩ | ⟨s₁, he, hc, hs, h₁⟩ <;>
    dsimp only <;> rw [he] <;> cases outcome
  · exact ⟨_, _, _, rfl, Nat.le_of_eq hs.symm, h₁, .inl rfl⟩
  · exact ⟨_, _, _, rfl, Nat.le_of_eq hs.symm, h₁, .inl rfl⟩
  · exact ⟨_, _, _, rfl, Nat.le_of_lt hs, h₁, .inl rfl⟩
  · exact ⟨_, _, _, rfl, Nat.le_of_lt hs, h₁, .inr ⟨rfl, rfl, hc, hs⟩⟩

theorem commitPending_eq (hc : c.inner.Holds t rows []) (store : Faulty Memory) :
    commitPending c store = Store.commit c store := by
  have hp : Store.pending (Faulty Memory) c = 0 := by
    have hz : c.inner.pending = #[] := Array.toList_eq_nil_iff.1 hc.pending
    show c.inner.pending.size = 0
    rw [hz]
    rfl
  unfold commitPending
  rw [hp]
  rfl

/-- Ending the open transaction for good settles it, unless its commit is struck. The error names
the call that failed: closing the connection fails only after the commit took effect. -/
theorem endTransaction_settles (h : s.Keeps spared a) (ha : a.current ≠ none) :
    ((s.endTransaction true).1 = .ok () ∧ (s.endTransaction true).2.Keeps spared a.settled) ∨
      (s.store.strikes < (s.endTransaction true).2.store.strikes ∧
        ((s.endTransaction true).1 = .error (.injected .close) ∧ .close ∉ spared ∧
            (s.endTransaction true).2.Keeps spared a.settled ∨
          (s.endTransaction true).1 = .error (.injected .commit) ∧
            (s.endTransaction true).2.Keeps spared a.voided)) := by
  cases h with
  | closed log h => exact absurd rfl ha
  | @live store past committed t rows c log h hc =>
    unfold endTransaction
    dsimp only
    rw [if_pos rfl, commitPending_eq hc]
    rcases Faulty.commit_shows h hc with
      ⟨c', s₁, he, hs, h₁⟩ | ⟨c', s₁, he, hs, h₁⟩ <;> rw [he]
    · -- The commit took effect, so an error can only be that of closing.
      obtain ⟨o, s₂, log', he, -, h₂, ho⟩ := release_shows h₁ t (.ok ()) c' log
      dsimp only
      rw [he]
      rcases ho with rfl | ⟨-, rfl, hcl, hs'⟩
      · exact .inl ⟨rfl, .closed log' h₂⟩
      · exact .inr ⟨hs ▸ hs', .inl ⟨rfl, hcl, .closed log' h₂⟩⟩
    · -- The error of the commit stays, whatever comes of rolling back and closing.
      obtain ⟨c₂, s₂, log', he, hs', h₂⟩ := rollbackFailed_shows h₁ t (.injected .commit) c' log
      dsimp only
      rw [he]
      obtain ⟨o, s₃, log', he, hs'', h₃, ho⟩ :=
        release_shows h₂ t (.error (.injected .commit)) c₂ log'
      dsimp only
      rw [he]
      rcases ho with rfl | ⟨ho, -⟩
      · have hlt := Nat.lt_of_lt_of_le hs (Nat.le_trans hs' hs'')
        exact .inr ⟨hlt, .inr ⟨rfl, .closed log' h₃⟩⟩
      · cases ho

theorem enters_endTransaction (h : s.Keeps spared a) (commit : Bool) :
    s.Enters spared (Account.Ends (.close ∉ spared) a commit) (s.endTransaction commit) := by
  by_cases ha : a.current = none
  · cases h with
    | closed log h => exact .ok (.closed log h) (.idle commit rfl)
    | live log h hc => cases ha
  cases commit with
  | true =>
    have hx := endTransaction_settles h ha
    generalize s.endTransaction true = x at hx ⊢
    obtain ⟨o, u⟩ := x
    dsimp only at hx
    obtain ⟨rfl, hk⟩ | ⟨hs, ⟨rfl, hc, hk⟩ | ⟨rfl, hk⟩⟩ := hx
    · exact .ok hk (.settled ha)
    · exact .error hk (.settledLate _ ha hc) hs
    · exact .error hk (.lost _ ha) hs
  | false =>
    cases h with
    | closed log h => exact absurd rfl ha
    | @live store past committed t rows c log h hc =>
      unfold endTransaction
      dsimp only
      rw [if_neg Bool.false_ne_true]
      obtain ⟨o, c', s₁, he, hs, hso, h₁⟩ := Faulty.rollback_shows h (c := c)
      rw [he]
      obtain ⟨o', s₂, log', he, hs', h₂, ho⟩ := release_shows h₁ t o c' log
      dsimp only
      rw [he]
      refine ⟨⟨_, .closed log' h₂, .voided o' nofun⟩, fun e heq => ?_⟩
      rcases ho with rfl | ⟨-, -, -, hs''⟩
      · exact Nat.lt_of_lt_of_le (hso e heq) hs'
      · exact Nat.lt_of_le_of_lt hs hs''

/-- Rows that fit the table wait together, or one of them could not be bound. -/
theorem bindAll_shows {waiting : List Row} (h : store.Shows spared 1 past committed)
    (hc : c.inner.Holds t rows waiting) (bs : List Binding)
    (hb : ∀ r ∈ bs.map Binding.row, r.length = t.arity) (log : Array Notice) :
    (∃ c' store' log', bindAll bs c store log = (.ok (), c', store', log') ∧
        store'.strikes = store.strikes ∧ store'.Shows spared 1 past committed ∧
        c'.inner.Holds t rows (waiting ++ bs.map Binding.row)) ∨
      ∃ e c' store' log' waiting', bindAll bs c store log = (.error e, c', store', log') ∧
        store.strikes < store'.strikes ∧ store'.Shows spared 1 past committed ∧
        c'.inner.Holds t rows waiting' := by
  induction bs generalizing c store log waiting with
  | nil => exact .inl ⟨c, store, log, rfl, rfl, h, by simpa using hc⟩
  | cons b rest ih =>
    rw [bindAll]
    rcases Faulty.addRow_shows h hc (hb b.row (by simp)) with
      ⟨c', s₁, he, hs, h₁, hc'⟩ | ⟨e, s₁, he, hs, h₁⟩ <;> rw [he]
    · have hrest := ih h₁ hc' (fun r hr => hb r (by simp [hr])) (b.notice.elim log log.push)
      rw [hs, List.append_assoc] at hrest
      exact hrest
    · exact .inr ⟨e, c, s₁, _, waiting, rfl, hs, h₁, hc⟩

theorem enters_insert (h : s.Keeps spared a) (hk : .executeKeep ∈ spared) {b : Batch}
    (hb : a.openTable? = some b.table) : s.Enters spared (Account.Takes b a) (s.insert b) := by
  cases h with
  | closed log h => cases hb
  | @live store past committed t rows c log h hc =>
    have ht : t = b.table := by simpa [Ledger.openTable?] using hb
    subst ht
    unfold insert
    dsimp only
    rw [if_pos rfl]
    have hrows : b.bindings.map Binding.row = b.rows := rfl
    rcases bindAll_shows h hc b.bindings (fun r => Batch.length_row) log with
      ⟨c', s₁, log', he, hs, h₁, hc'⟩ | ⟨e, c', s₁, log', w, he, hs, h₁, hc'⟩ <;> rw [he]
    · rw [hrows, List.nil_append] at hc'
      rcases Faulty.execute_shows h₁ hk hc' with
        ⟨c₂, s₂, he, hs', h₂, hc₂⟩ | ⟨e, c₂, s₂, he, hs', h₂, hc₂⟩ <;>
        dsimp only <;> rw [he]
      · exact .ok (.live log' h₂ hc₂) .posted
      · exact .error (.live log' h₂ hc₂) (.spoiled e) (hs ▸ hs')
    · exact .error (.live log' h₁ (Faulty.holds_clearBatch hc')) (.spoiled e) hs

end

theorem Keeps.openTable?_eq (h : s.Keeps spared a) : s.openTable? = a.openTable? := by
  cases h <;> rfl

theorem Keeps.eq_of_closed (h : s.Keeps spared a) (ha : a.current = none) :
    s = { s with live := none } := by
  cases h with
  | closed log h => rfl
  | live log h hc => cases ha

theorem Keeps.released (h : s.Keeps spared a) (ha : a.current = none) :
    s.live = none ∧ s.store.inner.openConnections = 0 := by
  cases h with
  | closed log h => exact ⟨rfl, h.connections⟩
  | live log h hc => cases ha

theorem enters_openFresh (h : s.Keeps spared a) (ha : a.current = none) (t : Table) :
    s.Enters spared (Account.Turns (.close ∉ spared) t a) (s.openFresh t) := by
  obtain ⟨⟨b, hb, ho⟩, hs⟩ := enters_openFor h ha t
  unfold openFresh
  generalize s.openFor t = x at hb ho hs ⊢
  obtain ⟨o, u⟩ := x
  dsimp only at hb ho hs ⊢
  cases o with
  | ok =>
    cases ho
    exact .ok hb (.opened ha)
  | error e => exact .error hb (.refused e ha ho) (hs e rfl)

theorem enters_switchTo (h : s.Keeps spared a) (t : Table) :
    s.Enters spared (Account.Turns (.close ∉ spared) t a) (s.switchTo t) := by
  have ht := h.openTable?_eq
  unfold switchTo
  cases ha : a.current with
  | none =>
    have hn : s.openTable? = none := by rw [ht, Ledger.openTable?, ha]; rfl
    rw [hn]
    exact enters_openFresh h ha t
  | some x =>
    obtain ⟨u, rows⟩ := x
    have hn : s.openTable? = some u := ht.trans (Ledger.openTable?_eq ha)
    rw [hn]
    dsimp only
    obtain ⟨⟨b, hb, he⟩, hs⟩ := enters_endTransaction h true
    have hle : s.store.strikes ≤ (s.endTransaction true).2.store.strikes :=
      (sees_endTransaction Faulty.monitor true s).always.1
    generalize s.endTransaction true = y at hb he hs hle ⊢
    obtain ⟨o, v⟩ := y
    dsimp only at hb he hs hle ⊢
    cases he with
    | idle _ hn => cases hn.symm.trans ha
    | lost e _ => exact .error hb (.lost e ha) (hs e rfl)
    | settledLate e _ hc => exact .error hb (.settledLate e ha hc) (hs e rfl)
    | settled =>
      dsimp only
      obtain ⟨⟨d, hd, ho⟩, hs'⟩ := enters_openFor (hb.tell (.switched u t)) rfl t
      generalize (v.tell (.switched u t)).openFor t = z at hd ho hs' ⊢
      obtain ⟨o, w⟩ := z
      dsimp only at hd ho hs' ⊢
      cases o with
      | ok =>
        cases ho
        exact .ok hd (.turned ha)
      | error e => exact .error hd (.stranded e ha ho) (Nat.lt_of_le_of_lt hle (hs' e rfl))

theorem enters_beginBatch (h : s.Keeps spared a) (t : Table) :
    s.Enters spared (Account.Begins (.close ∉ spared) t a) (s.beginBatch t) := by
  have ht := h.openTable?_eq
  by_cases hn : s.openTable? = some t
  · obtain ⟨rows, hx⟩ := Ledger.exists_current (ht.symm.trans hn)
    rw [beginBatch_stays hn]
    exact .ok h (.stays hx)
  · obtain ⟨⟨b, hb, he⟩, hs⟩ := enters_switchTo h t
    rw [beginBatch_eq_switchTo hn]
    exact ⟨⟨b, hb, .turns (ht ▸ hn) he⟩, hs⟩

theorem enters_endBatch (h : s.Keeps spared a) (commit : Bool) :
    s.Enters spared (fun o b => ∃ outcome, o = outcome.mapError .connection ∧
      Account.Ends (.close ∉ spared) a commit outcome b) (s.endBatch commit) := by
  obtain ⟨⟨b, hb, he⟩, hs⟩ := enters_endTransaction h commit
  unfold endBatch
  generalize s.endTransaction commit = x at hb he hs ⊢
  obtain ⟨o, u⟩ := x
  cases o with
  | ok => exact .ok hb ⟨_, rfl, he⟩
  | error e => exact .error hb ⟨_, rfl, he⟩ (hs e rfl)

/-- A session that is given up keeps what was committed, and nothing else. -/
theorem Keeps.abandon (h : s.Keeps spared a) : s.abandon.Keeps spared a.voided := by
  have ht := h.openTable?_eq
  unfold Session.abandon
  cases ha : a.current with
  | none =>
    have hv : a.voided = a := by simp [Account.voided, Ledger.voided, ← ha]
    rw [ht, Ledger.openTable?, ha, hv]
    exact h
  | some x =>
    obtain ⟨t, rows⟩ := x
    rw [ht, Ledger.openTable?, ha]
    dsimp only [Option.map_some]
    obtain ⟨⟨b, hb, o, -, he⟩, -⟩ := enters_endBatch (h.tell (.discarding t)) false
    generalize (s.tell (.discarding t)).endBatch false = y at hb he ⊢
    obtain ⟨o', u⟩ := y
    cases he with
    | idle _ hn => cases hn.symm.trans ha
    | voided =>
      cases o' with
      | ok => exact hb
      | error e => exact hb.tell _

def fresh (faults : List Fault) : FaultySession := { store := { faults, inner := {} } }

theorem keeps_fresh {faults : List Fault} (h : ∀ p ∈ spared, Fault.Spares p faults) :
    (fresh faults).Keeps spared ⟨{}, []⟩ :=
  .closed _ ⟨h, ⟨rfl, rfl, rfl⟩, rfl, rfl, fun t => by simp⟩

theorem keeps_conforming {faults : List Fault} (h : Fault.Conforming faults) :
    (fresh faults).Keeps [.executeKeep] ⟨{}, []⟩ :=
  keeps_fresh fun _ hp => List.mem_singleton.1 hp ▸ h

end Session
end MapLoader
