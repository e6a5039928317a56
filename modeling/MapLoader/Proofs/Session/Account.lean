import MapLoader.Proofs.Store.Transactions
import MapLoader.Session.Basic

/-! The accounts of a session: the rows committed to each table, the rows of the open transaction,
and the transactions that these sum up. Every operation of a session makes one of a few entries,
and what the entries keep is kept by every operation. -/

namespace MapLoader

/-- The rows committed to each table, and the table and the rows of the open transaction. -/
structure Ledger where
  committed : Table → List Row := fun _ => []
  current : Option (Table × List Row) := none

namespace Ledger

def openTable? (l : Ledger) : Option Table := l.current.map Prod.fst

/-- The rows of the open transaction, if it is for the given table. -/
def openRows (l : Ledger) (t : Table) : List Row :=
  match l.current with
  | some (u, rows) => if u = t then rows else []
  | none => []

def opened (t : Table) (l : Ledger) : Ledger := { l with current := some (t, []) }

def posted (rows : List Row) (l : Ledger) : Ledger :=
  { l with current := l.current.map fun x => (x.1, x.2 ++ rows) }

def settled (l : Ledger) : Ledger := { committed := fun t => l.committed t ++ l.openRows t }

def voided (l : Ledger) : Ledger := { l with current := none }

@[simp] theorem committed_opened (t : Table) (l : Ledger) :
    (l.opened t).committed = l.committed := rfl
@[simp] theorem committed_posted (rows : List Row) (l : Ledger) :
    (l.posted rows).committed = l.committed := rfl
@[simp] theorem committed_settled (l : Ledger) (t : Table) :
    l.settled.committed t = l.committed t ++ l.openRows t := rfl
@[simp] theorem committed_voided (l : Ledger) : l.voided.committed = l.committed := rfl

@[simp] theorem current_opened (t : Table) (l : Ledger) : (l.opened t).current = some (t, []) := rfl
@[simp] theorem current_posted (rows : List Row) (l : Ledger) :
    (l.posted rows).current = l.current.map fun x => (x.1, x.2 ++ rows) := rfl
@[simp] theorem current_settled (l : Ledger) : l.settled.current = none := rfl
@[simp] theorem current_voided (l : Ledger) : l.voided.current = none := rfl

@[simp] theorem openTable?_posted (rows : List Row) (l : Ledger) :
    (l.posted rows).openTable? = l.openTable? := by
  cases h : l.current <;> simp [openTable?, h]

theorem exists_current {l : Ledger} {t : Table} (h : l.openTable? = some t) :
    ∃ rows, l.current = some (t, rows) := by
  obtain ⟨⟨u, rows⟩, hc, rfl⟩ := Option.map_eq_some_iff.1 h
  exact ⟨rows, hc⟩

theorem openTable?_eq {l : Ledger} {t : Table} {rows : List Row} (h : l.current = some (t, rows)) :
    l.openTable? = some t := by
  simp [openTable?, h]

theorem openRows_eq {l : Ledger} {t : Table} {rows : List Row} (h : l.current = some (t, rows))
    (u : Table) : l.openRows u = if t = u then rows else [] := by
  simp [openRows, h]

theorem openRows_of_ne {l : Ledger} {t : Table} (h : l.openTable? ≠ some t) :
    l.openRows t = [] := by
  unfold openRows
  split
  · rename_i u rows hc
    have hu : u ≠ t := fun hu => h (hu ▸ openTable?_eq hc)
    exact if_neg hu
  · rfl

theorem openRows_eq_nil {l : Ledger} (h : l.current = none) (u : Table) : l.openRows u = [] := by
  simp [openRows, h]

end Ledger

/-- A batch as a transaction shows it. -/
def Batch.entry (x : Batch) : Table × List Row := (x.table, x.rows)

/-- A ledger with the transactions that it sums up, the latest first. -/
structure Account extends Ledger where
  history : List Transaction := []

namespace Account

def opened (t : Table) (a : Account) : Account := ⟨a.toLedger.opened t, {} :: a.history⟩

/-- A transaction began, but its connection could not be prepared. -/
def attempted (a : Account) : Account := { a with history := {} :: a.history }

def posted (t : Table) (rows : List Row) (a : Account) : Account :=
  ⟨a.toLedger.posted rows, (a.history.headD {}).post t rows :: a.history.tail⟩

def settled (a : Account) : Account :=
  ⟨a.toLedger.settled, a.history.modifyHead Transaction.settle⟩

def voided (a : Account) : Account := ⟨a.toLedger.voided, a.history⟩

@[simp] theorem toLedger_opened (t : Table) (a : Account) :
    (a.opened t).toLedger = a.toLedger.opened t := rfl
@[simp] theorem toLedger_attempted (a : Account) : a.attempted.toLedger = a.toLedger := rfl
@[simp] theorem toLedger_posted (t : Table) (rows : List Row) (a : Account) :
    (a.posted t rows).toLedger = a.toLedger.posted rows := rfl
@[simp] theorem toLedger_settled (a : Account) : a.settled.toLedger = a.toLedger.settled := rfl
@[simp] theorem toLedger_voided (a : Account) : a.voided.toLedger = a.toLedger.voided := rfl

@[simp] theorem history_opened (t : Table) (a : Account) :
    (a.opened t).history = {} :: a.history := rfl
@[simp] theorem history_attempted (a : Account) : a.attempted.history = {} :: a.history := rfl
@[simp] theorem history_posted (t : Table) (rows : List Row) (a : Account) :
    (a.posted t rows).history = (a.history.headD {}).post t rows :: a.history.tail := rfl
@[simp] theorem history_settled (a : Account) :
    a.settled.history = a.history.modifyHead Transaction.settle := rfl
@[simp] theorem history_voided (a : Account) : a.voided.history = a.history := rfl

/-- What opening for a table comes to. -/
inductive Opens (t : Table) (a : Account) : Except StoreError Unit → Account → Prop
  | opened : Opens t a (.ok ()) (a.opened t)
  | refused (e : StoreError) : Opens t a (.error e) a
  | attempted (e : StoreError) : Opens t a (.error e) a.attempted

/-- What ending a transaction comes to. Only if closing can fail, a transaction that was
committed may still be reported as failed. -/
inductive Ends (closing : Prop) (a : Account) : Bool → Except StoreError Unit → Account → Prop
  | idle (commit : Bool) (h : a.current = none) : Ends closing a commit (.ok ()) a
  | settled (h : a.current ≠ none) : Ends closing a true (.ok ()) a.settled
  | settledLate (e : StoreError) (h : a.current ≠ none) (hc : closing) :
    Ends closing a true (.error e) a.settled
  | lost (e : StoreError) (h : a.current ≠ none) : Ends closing a true (.error e) a.voided
  | voided (outcome : Except StoreError Unit) (h : a.current ≠ none) :
    Ends closing a false outcome a.voided

/-- What leaving the open transaction for one on a table comes to. -/
inductive Turns (closing : Prop) (t : Table) (a : Account) :
    Except SessionError Session.BatchStart → Account → Prop
  | opened (h : a.current = none) : Turns closing t a (.ok {}) (a.opened t)
  | refused (e : StoreError) {b : Account} (h : a.current = none) (h' : Opens t a (.error e) b) :
    Turns closing t a (.error (.connection e)) b
  | turned {u : Table} {rows : List Row} (h : a.current = some (u, rows)) :
    Turns closing t a (.ok ⟨true⟩) (a.settled.opened t)
  | lost (e : StoreError) {u : Table} {rows : List Row} (h : a.current = some (u, rows)) :
    Turns closing t a (.error (.switchCommit u t e)) a.voided
  | settledLate (e : StoreError) {u : Table} {rows : List Row} (h : a.current = some (u, rows))
    (hc : closing) : Turns closing t a (.error (.switchCommit u t e)) a.settled
  | stranded (e : StoreError) {b : Account} {u : Table} {rows : List Row}
    (h : a.current = some (u, rows)) (h' : Opens t a.settled (.error e) b) :
    Turns closing t a (.error (.switchOpen u t e)) b

/-- What beginning a batch comes to. -/
inductive Begins (closing : Prop) (t : Table) (a : Account) :
    Except SessionError Session.BatchStart → Account → Prop
  | stays {rows : List Row} (h : a.current = some (t, rows)) : Begins closing t a (.ok {}) a
  | turns {o : Except SessionError Session.BatchStart} {b : Account}
    (h : a.openTable? ≠ some t) (h' : Turns closing t a o b) : Begins closing t a o b

/-- What offering a batch to a transaction that is open for its table comes to. -/
inductive Takes (b : Batch) (a : Account) : Except SessionError Nat → Account → Prop
  | posted : Takes b a (.ok b.rows.length) (a.posted b.table b.rows)
  | spoiled (e : StoreError) : Takes b a (.error (.batch b.table e)) a

/-- A property of accounts that is kept by every entry but the posting of rows. -/
structure Steady (P : Account → Prop) : Prop where
  opened {a : Account} (t : Table) : a.current = none → P a → P (a.opened t)
  attempted {a : Account} : a.current = none → P a → P a.attempted
  settled {a : Account} {t : Table} {rows : List Row} :
    a.current = some (t, rows) → P a → P a.settled
  voided {a : Account} : P a → P a.voided

namespace Steady

variable {P : Account → Prop} (S : Steady P) {closing : Prop} {a b : Account} {t : Table}
include S

theorem opens {o : Except StoreError Unit} (ha : a.current = none) (h : P a)
    (he : Opens t a o b) : P b := by
  cases he with
  | opened => exact S.opened t ha h
  | refused e => exact h
  | attempted e => exact S.attempted ha h

theorem settled_of_ne (ha : a.current ≠ none) (h : P a) : P a.settled := by
  obtain ⟨⟨t, rows⟩, hx⟩ := Option.ne_none_iff_exists'.1 ha
  exact S.settled hx h

theorem ends {commit : Bool} {o : Except StoreError Unit} (h : P a)
    (he : Ends closing a commit o b) : P b := by
  cases he with
  | idle => exact h
  | settled ha => exact S.settled_of_ne ha h
  | settledLate e ha => exact S.settled_of_ne ha h
  | lost e => exact S.voided h
  | voided o => exact S.voided h

theorem turns {o : Except SessionError Session.BatchStart} (h : P a)
    (he : Turns closing t a o b) : P b := by
  cases he with
  | opened ha => exact S.opened t ha h
  | refused e ha he => exact S.opens ha h he
  | turned ha => exact S.opened t rfl (S.settled ha h)
  | lost e ha => exact S.voided h
  | settledLate e ha => exact S.settled ha h
  | stranded e ha he => exact S.opens rfl (S.settled ha h) he

theorem begins {o : Except SessionError Session.BatchStart} (h : P a)
    (he : Begins closing t a o b) : P b := by
  cases he with
  | stays => exact h
  | turns _ he => exact S.turns h he

end Steady

/-- A property of accounts that every entry keeps. -/
structure Lasting (P : Account → Prop) : Prop extends Steady P where
  posted {a : Account} {t : Table} {rows : List Row} (more : List Row) :
    a.current = some (t, rows) → P a → P (a.posted t more)

theorem Lasting.posted_of_open {P : Account → Prop} (L : Lasting P) {a : Account} {t : Table}
    (ha : a.openTable? = some t) (h : P a) (more : List Row) : P (a.posted t more) := by
  obtain ⟨rows, hx⟩ := Ledger.exists_current ha
  exact L.posted more hx h

theorem Lasting.takes {P : Account → Prop} (L : Lasting P) {a b : Account} {x : Batch}
    {o : Except SessionError Nat} (ha : a.openTable? = some x.table) (h : P a)
    (he : Takes x a o b) : P b := by
  cases he with
  | posted => exact L.posted_of_open ha h x.rows
  | spoiled e => exact h

/-- Beginning a batch leaves the account open for its table, if it succeeds. -/
theorem Begins.openTable?_eq {closing : Prop} {t : Table} {a b : Account}
    {start : Session.BatchStart} (h : Begins closing t a (.ok start) b) :
    b.openTable? = some t := by
  cases h with
  | stays h => exact congrArg (Option.map Prod.fst) h
  | turns _ h => cases h <;> rfl

/-- Nothing is open after a transaction has ended. -/
theorem Ends.current_eq {closing : Prop} {commit : Bool} {o : Except StoreError Unit}
    {a b : Account} (h : Ends closing a commit o b) : b.current = none := by
  cases h with
  | idle _ h => exact h
  | settled | settledLate | lost | voided => rfl

/-- After a commit that failed on the way to another table, nothing is open. -/
theorem Begins.current_of_switchCommit {closing : Prop} {t u v : Table} {e : StoreError}
    {a b : Account} (h : Begins closing t a (.error (.switchCommit u v e)) b) :
    b.current = none := by
  cases h with
  | turns _ h => cases h <;> rfl

/-- The batches executed, in every transaction so far. -/
def batches (a : Account) : List (Table × List Row) :=
  a.history.reverse.flatMap Transaction.batches

@[simp] theorem batches_opened (t : Table) (a : Account) : (a.opened t).batches = a.batches := by
  simp [batches]

@[simp] theorem batches_attempted (a : Account) : a.attempted.batches = a.batches := by
  simp [batches]

@[simp] theorem batches_posted (t : Table) (rows : List Row) (a : Account) :
    (a.posted t rows).batches = a.batches ++ [(t, rows)] := by
  cases h : a.history <;> simp [batches, h, Transaction.post]

@[simp] theorem batches_settled (a : Account) : a.settled.batches = a.batches := by
  cases h : a.history <;> simp [batches, h]

@[simp] theorem batches_voided (a : Account) : a.voided.batches = a.batches := rfl

/-- Only posting adds to the batches. -/
theorem steady_batches (bs : List (Table × List Row)) : Steady fun a => a.batches = bs where
  opened t _ h := by simpa using h
  attempted _ h := by simpa using h
  settled _ h := by simpa using h
  voided h := h

/-- The rows executed on a table, in every transaction so far. -/
def executed (a : Account) (t : Table) : List Row :=
  a.history.reverse.flatMap (Transaction.rows t)

theorem executed_eq (a : Account) (t : Table) :
    a.executed t = a.batches.flatMap fun b => if b.1 = t then b.2 else [] :=
  List.flatMap_assoc.symm

theorem executed_of_batches {a b : Account} (h : b.batches = a.batches) :
    b.executed = a.executed := by
  funext t
  rw [executed_eq, executed_eq, h]

@[simp] theorem executed_opened (t : Table) (a : Account) : (a.opened t).executed = a.executed :=
  executed_of_batches (batches_opened t a)

@[simp] theorem executed_attempted (a : Account) : a.attempted.executed = a.executed :=
  executed_of_batches (batches_attempted a)

@[simp] theorem executed_posted (t u : Table) (rows : List Row) (a : Account) :
    (a.posted t rows).executed u = a.executed u ++ if t = u then rows else [] := by
  simp [executed_eq]

@[simp] theorem executed_settled (a : Account) : a.settled.executed = a.executed :=
  executed_of_batches (batches_settled a)

@[simp] theorem executed_voided (a : Account) : a.voided.executed = a.executed := rfl

/-- The rows of a table that are committed or in the open transaction. -/
def held (a : Account) (t : Table) : List Row := a.committed t ++ a.openRows t

theorem held_closed {a : Account} (ha : a.current = none) : a.held = a.committed := by
  funext t
  rw [held, Ledger.openRows_eq_nil ha, List.append_nil]

theorem held_opened {a : Account} (ha : a.current = none) (t : Table) :
    (a.opened t).held = a.held := by
  funext u
  have hn := Ledger.openRows_eq (l := (a.opened t).toLedger) rfl u
  rw [ite_self] at hn
  rw [held, hn, held_closed ha, List.append_nil]
  rfl

@[simp] theorem held_settled (a : Account) : a.settled.held = a.held := held_closed rfl

theorem held_posted {a : Account} {t : Table} (ha : a.openTable? = some t) (rows : List Row)
    (u : Table) : (a.posted t rows).held u = a.held u ++ if t = u then rows else [] := by
  obtain ⟨old, hx⟩ := Ledger.exists_current ha
  have hp : (a.posted t rows).current = some (t, old ++ rows) := by simp [hx]
  rw [held, held, Ledger.openRows_eq hx, Ledger.openRows_eq hp]
  by_cases htu : t = u <;> simp [htu]

/-- Beginning a batch well costs no rows. -/
theorem Begins.held_eq {closing : Prop} {t : Table} {a b : Account} {start : Session.BatchStart}
    (h : Begins closing t a (.ok start) b) : b.held = a.held := by
  cases h with
  | stays _ => rfl
  | turns _ h =>
    cases h with
    | opened ha => exact held_opened ha t
    | turned _ => exact (held_opened rfl t).trans (held_settled a)

/-- Ending a transaction well commits its rows. -/
theorem Ends.committed_eq {closing : Prop} {a b : Account} (h : Ends closing a true (.ok ()) b) :
    b.committed = a.held := by
  cases h with
  | idle _ ha => exact (held_closed ha).symm
  | settled _ => rfl

/-- The account is nothing but the sum of its transactions: each is on one table, the committed
ones make up the committed rows, and an open transaction is the latest. -/
structure Fair (a : Account) : Prop where
  committed (t : Table) : a.committed t =
    (a.history.reverse.filter Transaction.committed).flatMap (Transaction.rows t)
  uniform : ∀ x ∈ a.history, x.Uniform
  current {t : Table} {rows : List Row} : a.current = some (t, rows) →
    ∃ x past, a.history = x :: past ∧ x.committed = false ∧ (∀ b ∈ x.batches, b.1 = t) ∧
      x.rows t = rows

theorem fair_empty : Fair ⟨{}, []⟩ := ⟨fun _ => rfl, nofun, nofun⟩

theorem Fair.attempted {a : Account} (ha : a.current = none) (h : a.Fair) : a.attempted.Fair := by
  refine ⟨fun t => ?_, ?_, fun hc => ?_⟩
  · simpa using h.committed t
  · intro x hx
    rcases List.mem_cons.1 hx with rfl | hx
    · exact ⟨.users, by simp⟩
    · exact h.uniform x hx
  · exact nomatch ha.symm.trans hc

theorem Fair.posted {a : Account} {t : Table} {rows : List Row} (more : List Row)
    (ha : a.current = some (t, rows)) (h : a.Fair) : (a.posted t more).Fair := by
  obtain ⟨x, past, hx, hxc, hxb, hxr⟩ := h.current ha
  have hb : ∀ b ∈ (x.post t more).batches, b.1 = t := by
    intro b hb
    rcases List.mem_append.1 hb with hb | hb
    · exact hxb b hb
    · rw [List.mem_singleton.1 hb]
  refine ⟨fun u => ?_, ?_, fun hc => ?_⟩
  · have hu := h.committed u
    simp only [hx, List.reverse_cons, List.filter_append, List.flatMap_append] at hu
    simp [hu, hx, hxc]
  · intro y hy
    rw [history_posted, hx] at hy
    rcases List.mem_cons.1 hy with rfl | hy
    · exact ⟨t, hb⟩
    · exact h.uniform y (by rw [hx]; exact List.mem_cons_of_mem x hy)
  · simp only [toLedger_posted, Ledger.current_posted, ha, Option.map_some, Option.some.injEq] at hc
    cases hc
    exact ⟨x.post t more, past, by simp [hx], hxc, hb, by simp [hxr]⟩

/-- The rows that are open are those of the latest transaction. -/
theorem Fair.openRows_eq {a : Account} {t : Table} {rows : List Row} (h : a.Fair)
    (ha : a.current = some (t, rows)) : ∃ x past, a.history = x :: past ∧ x.committed = false ∧
      (∀ b ∈ x.batches, b.1 = t) ∧ ∀ u, a.openRows u = x.rows u := by
  obtain ⟨x, past, hx, hxc, hxb, hxr⟩ := h.current ha
  refine ⟨x, past, hx, hxc, hxb, fun u => ?_⟩
  rw [Ledger.openRows_eq ha]
  by_cases htu : t = u
  · rw [if_pos htu, ← htu, hxr]
  · rw [if_neg htu, Transaction.rows_eq_nil hxb (Ne.symm htu)]

theorem Fair.settled {a : Account} {t : Table} {rows : List Row}
    (ha : a.current = some (t, rows)) (h : a.Fair) : a.settled.Fair := by
  obtain ⟨x, past, hx, hxc, hxb, hr⟩ := h.openRows_eq ha
  refine ⟨fun u => ?_, ?_, nofun⟩
  · have hu := h.committed u
    simp only [hx, List.reverse_cons, List.filter_append, List.flatMap_append] at hu
    simp [hu, hx, hxc, hr u, List.filter_cons]
  · intro y hy
    rw [history_settled, hx] at hy
    rcases List.mem_cons.1 hy with rfl | hy
    · exact ⟨t, hxb⟩
    · exact h.uniform y (by rw [hx]; exact List.mem_cons_of_mem x hy)

theorem lasting_fair : Lasting Fair where
  attempted ha h := h.attempted ha
  posted more ha h := h.posted more ha
  settled ha h := h.settled ha
  voided h := ⟨h.committed, h.uniform, nofun⟩
  opened t ha h := by
    have h' := h.attempted ha
    refine ⟨h'.committed, h'.uniform, fun hc => ?_⟩
    cases hc
    exact ⟨{}, _, rfl, rfl, by simp, rfl⟩

end Account

end MapLoader
