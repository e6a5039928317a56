import MapLoader.Proofs.Store.Twins

/-! A store that writes down every call it is given together with the answer. It answers as the
store inside does, so two transcripts are equal only if the calls came in the same order and ended
alike. -/

namespace MapLoader

inductive Exchange
  | connect (outcome : Except StoreError Unit)
  | prepare (table : Table) (outcome : Except StoreError Unit)
  | addRow (row : Row) (outcome : Except StoreError Unit)
  | pending (rows : Nat)
  | clearBatch
  | execute (outcome : Except StoreError Nat)
  | commit (outcome : Except StoreError Unit)
  | rollback (outcome : Except StoreError Unit)
  | close (outcome : Except StoreError Unit)
  deriving Repr

structure Transcribed (σ : Type) where
  store : σ
  exchanges : List Exchange := []

/-- Clearing a batch does not reach the store: the connection keeps a note of it, and the next
call writes the note down. -/
structure Transcribed.Connection (κ : Type) where
  inner : κ
  notes : List Exchange := []

namespace Transcribed

variable {σ κ α : Type}

def write (s : Transcribed σ) (xs : List Exchange) (store : σ) : Transcribed σ :=
  { store, exchanges := s.exchanges ++ xs }

variable [Store σ κ]

/-- A call on a connection, written down by `line`. How many rows wait before it is written down
too, whether or not anyone asked. -/
def through (line : Except StoreError α → Exchange) (call : κ → σ → Except StoreError α × κ × σ)
    (c : Connection κ) (s : Transcribed σ) : Except StoreError α × Connection κ × Transcribed σ :=
  let x := call c.inner s.store
  let lines := [.pending (Store.pending σ c.inner), line x.1]
  (x.1, { inner := x.2.1 }, s.write (c.notes ++ lines) x.2.2)

instance : Store (Transcribed σ) (Connection κ) where
  connect s :=
    let x := Store.connect s.store
    (x.1.map fun c => { inner := c }, s.write [.connect (x.1.map fun _ => ())] x.2)
  prepare t := through (.prepare t) (Store.prepare t)
  addRow r := through (.addRow r) (Store.addRow r)
  pending c := Store.pending σ c.inner
  clearBatch c := { inner := Store.clearBatch σ c.inner, notes := c.notes ++ [.clearBatch] }
  execute := through .execute Store.execute
  commit := through .commit Store.commit
  rollback := through .rollback Store.rollback
  close c s :=
    let x := Store.close c.inner s.store
    let lines := [.pending (Store.pending σ c.inner), .close x.1]
    (x.1, s.write (c.notes ++ lines) x.2)

/-- The store inside, reached through the connection inside. -/
def Linked (c : Connection κ) (c' : κ) (s : Transcribed σ) (s' : σ) : Prop :=
  c' = c.inner ∧ s' = s.store

theorem tallies_through (line : Except StoreError α → Exchange)
    (call : κ → σ → Except StoreError α × κ × σ) {c : Connection κ} {c' : κ} {s : Transcribed σ}
    {s' : σ} (h : Linked c c' s s') :
    Tallies (fun _ => False) Linked (through line call c s) (call c' s') := by
  obtain ⟨rfl, rfl⟩ := h
  exact fun _ => ⟨_, _, rfl, rfl, rfl⟩

/-- A transcribed store never leaves the store inside. -/
def lockstep : Lockstep (Transcribed σ) σ where
  monitor := .idle
  astray _ := False
  stays _ h := h
  apart s s' := s' = s.store
  linked := Linked
  prepared _ := Linked
  linked_of_prepared h := h
  connect {s s'} := by
    rintro rfl -
    have hc : Store.connect s = ((Store.connect s.store).1.map fun c => { inner := c },
        s.write [.connect ((Store.connect s.store).1.map fun _ => ())]
          (Store.connect s.store).2) := rfl
    rw [hc]
    rcases Store.connect s.store with ⟨e | c, u⟩
    · exact ⟨u, rfl, rfl⟩
    · exact ⟨c, u, rfl, rfl, rfl⟩
  prepare t {c c' s s'} := by
    rintro ⟨rfl, rfl⟩ -
    have hp : Store.prepare t c s = through (.prepare t) (Store.prepare t) c s := rfl
    rw [hp, through]
    rcases Store.prepare t c.inner s.store with ⟨e | _, d, u⟩
    · exact ⟨d, u, rfl, rfl, rfl⟩
    · exact ⟨d, u, rfl, rfl, rfl⟩
  addRow _ h := tallies_through _ _ h
  pending h := by rw [h.1]; rfl
  clearBatch h := ⟨by rw [h.1]; rfl, h.2⟩
  execute h := tallies_through _ _ h
  commit h := tallies_through _ _ h
  rollback h := tallies_through _ _ h
  close {c c' s s'} := by
    rintro ⟨rfl, rfl⟩ -
    exact ⟨_, rfl, rfl⟩

end Transcribed
end MapLoader
