import MapLoader.Proofs.Store.Lockstep

/-! A store that also writes down how its calls fail. It answers every call as the store inside
does, so what is done to one can be read off the other. -/

namespace MapLoader

structure Audited (σ : Type) where
  store : σ
  /-- The errors that calls ended with, in order. -/
  errors : List StoreError := []

namespace Audited

variable {σ κ α : Type}

def after (a : Audited σ) (outcome : Except StoreError α) (store : σ) : Audited σ :=
  match outcome with
  | .ok _ => { a with store }
  | .error e => { store, errors := a.errors ++ [e] }

@[simp] theorem store_after (a : Audited σ) (o : Except StoreError α) (s : σ) :
    (a.after o s).store = s := by cases o <;> rfl

theorem errors_after (a : Audited σ) (o : Except StoreError α) (s : σ) :
    a.errors <+: (a.after o s).errors := by
  cases o with
  | ok => exact List.prefix_rfl
  | error e => exact List.prefix_append _ _

/-- An error that is the outcome is written down. -/
def Notes (outcome : Except StoreError α) (a : Audited σ) : Prop :=
  ∀ e, outcome = .error e → e ∈ a.errors

theorem notes_after (a : Audited σ) (o : Except StoreError α) (s : σ) : Notes o (a.after o s) := by
  rintro e rfl
  simp [after]

theorem notes_error {e : StoreError} {a : Audited σ} (h : e ∈ a.errors) :
    Notes (.error e : Except StoreError α) a := by
  rintro _ ⟨rfl⟩
  exact h

/-- The store inside, reached through the same connection. -/
def Linked (c c' : κ) (a : Audited σ) (s : σ) : Prop := c' = c ∧ a.store = s

theorem linked_after (a : Audited σ) (c : κ) (o : Except StoreError α) (s : σ) :
    Linked c c (a.after o s) s := ⟨rfl, a.store_after o s⟩

variable [Store σ κ]

instance : Store (Audited σ) κ where
  connect a := ((Store.connect a.store).1, a.after (Store.connect a.store).1
    (Store.connect a.store).2)
  prepare t c a :=
    let x := Store.prepare t c a.store
    (x.1, x.2.1, a.after x.1 x.2.2)
  addRow r c a :=
    let x := Store.addRow r c a.store
    (x.1, x.2.1, a.after x.1 x.2.2)
  pending := Store.pending σ
  clearBatch := Store.clearBatch σ
  execute c a :=
    let x := Store.execute c a.store
    (x.1, x.2.1, a.after x.1 x.2.2)
  commit c a :=
    let x := Store.commit c a.store
    (x.1, x.2.1, a.after x.1 x.2.2)
  rollback c a :=
    let x := Store.rollback c a.store
    (x.1, x.2.1, a.after x.1 x.2.2)
  close c a := ((Store.close c a.store).1, a.after (Store.close c a.store).1
    (Store.close c a.store).2)

/-- No error that was written down is taken out again. -/
def monitor : Monitor (Audited σ) where
  always a b := a.errors <+: b.errors
  smoothly _ _ := True
  always_refl _ := List.prefix_rfl
  always_trans h h' := h.trans h'
  smoothly_refl _ := trivial
  smoothly_trans _ _ := trivial
  connect a := ⟨a.errors_after _ _, fun _ _ => trivial⟩
  prepare _ _ a := ⟨a.errors_after _ _, fun _ _ => trivial⟩
  addRow _ _ a := ⟨a.errors_after _ _, fun _ _ => trivial⟩
  execute _ a := ⟨a.errors_after _ _, fun _ _ => trivial⟩
  commit _ a := ⟨a.errors_after _ _, fun _ _ => trivial⟩
  rollback _ a := ⟨a.errors_after _ _, fun _ _ => trivial⟩
  close _ a := ⟨a.errors_after _ _, fun _ _ => trivial⟩

/-- An audited store never leaves the store inside. -/
def lockstep : Lockstep (Audited σ) σ where
  monitor := monitor
  astray _ := False
  stays _ h := h
  apart a s := a.store = s
  linked := Linked
  prepared _ := Linked
  linked_of_prepared h := h
  connect {a s} := by
    rintro rfl -
    have hc : Store.connect a = ((Store.connect a.store).1,
        a.after (Store.connect a.store).1 (Store.connect a.store).2) := rfl
    rw [hc]
    rcases Store.connect a.store with ⟨e | c, u⟩
    · exact ⟨u, rfl, store_after a _ u⟩
    · exact ⟨c, u, rfl, linked_after a c _ u⟩
  prepare t {c c' a s} := by
    rintro ⟨rfl, rfl⟩ -
    have hp : Store.prepare t c' a = ((Store.prepare t c' a.store).1,
        (Store.prepare t c' a.store).2.1,
        a.after (Store.prepare t c' a.store).1 (Store.prepare t c' a.store).2.2) := rfl
    rw [hp]
    rcases Store.prepare t c' a.store with ⟨e | _, d, u⟩
    · exact ⟨d, u, rfl, linked_after a d _ u⟩
    · exact ⟨d, u, rfl, linked_after a d _ u⟩
  addRow _ := by
    rintro ⟨rfl, rfl⟩ -
    exact ⟨_, _, rfl, linked_after _ _ _ _⟩
  pending h := by rw [h.1]; rfl
  clearBatch h := ⟨by rw [h.1]; rfl, h.2⟩
  execute := by
    rintro t c c' a s ⟨rfl, rfl⟩ -
    exact ⟨_, _, rfl, linked_after _ _ _ _⟩
  commit := by
    rintro t c c' a s ⟨rfl, rfl⟩ -
    exact ⟨_, _, rfl, linked_after _ _ _ _⟩
  rollback := by
    rintro t c c' a s ⟨rfl, rfl⟩ -
    exact ⟨_, _, rfl, linked_after _ _ _ _⟩
  close := by
    rintro c c' a s ⟨rfl, rfl⟩ -
    exact ⟨_, rfl, store_after _ _ _⟩

end Audited
end MapLoader
