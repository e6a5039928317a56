import MapLoader.Proofs.Store.Faults

/-! What is watched of a store while calls are made to it: one relation between the store and
what it becomes that every call keeps, and one that every call keeps which succeeds. On a store
with faults the number of strikes is watched in this way. -/

namespace MapLoader

/-- The first relation holds across a call, and the second too if the call succeeded. -/
structure Watched {σ ε α : Type} (always smoothly : σ → σ → Prop) (outcome : Except ε α)
    (s s' : σ) : Prop where
  always : always s s'
  smoothly : ∀ a, outcome = .ok a → smoothly s s'

structure Monitor (σ : Type) {κ : Type} [Store σ κ] where
  always : σ → σ → Prop
  smoothly : σ → σ → Prop
  always_refl (s : σ) : always s s
  always_trans {a b c : σ} : always a b → always b c → always a c
  smoothly_refl (s : σ) : smoothly s s
  smoothly_trans {a b c : σ} : smoothly a b → smoothly b c → smoothly a c
  connect (s : σ) : Watched always smoothly (Store.connect s).1 s (Store.connect s).2
  prepare (t : Table) (c : κ) (s : σ) :
    Watched always smoothly (Store.prepare t c s).1 s (Store.prepare t c s).2.2
  addRow (r : Row) (c : κ) (s : σ) :
    Watched always smoothly (Store.addRow r c s).1 s (Store.addRow r c s).2.2
  execute (c : κ) (s : σ) : Watched always smoothly (Store.execute c s).1 s (Store.execute c s).2.2
  commit (c : κ) (s : σ) : Watched always smoothly (Store.commit c s).1 s (Store.commit c s).2.2
  rollback (c : κ) (s : σ) :
    Watched always smoothly (Store.rollback c s).1 s (Store.rollback c s).2.2
  close (c : κ) (s : σ) : Watched always smoothly (Store.close c s).1 s (Store.close c s).2

namespace Monitor

variable {σ κ ε ε' α β : Type} [Store σ κ] (M : Monitor σ)

abbrev Sees (outcome : Except ε α) (s s' : σ) : Prop := Watched M.always M.smoothly outcome s s'

variable {M}

theorem sees_ok (a : α) (s : σ) : M.Sees (.ok a : Except ε α) s s :=
  ⟨M.always_refl s, fun _ _ => M.smoothly_refl s⟩

theorem sees_error {e : ε} {s s' : σ} (h : M.always s s') : M.Sees (.error e : Except ε α) s s' :=
  ⟨h, fun _ he => nomatch he⟩

end Monitor

namespace Watched

variable {σ κ ε ε' α β : Type} [Store σ κ] {M : Monitor σ}

theorem andThen {a : α} {o : Except ε' β} {s s' s'' : σ}
    (h : M.Sees (.ok a : Except ε α) s s') (h' : M.Sees o s' s'') : M.Sees o s s'' :=
  ⟨M.always_trans h.always h'.always,
    fun b hb => M.smoothly_trans (h.smoothly a rfl) (h'.smoothly b hb)⟩

theorem mapError {o : Except ε α} {s s' : σ} (h : M.Sees o s s') (f : ε → ε') :
    M.Sees (o.mapError f) s s' := by
  cases o with
  | error e => exact Monitor.sees_error h.always
  | ok a => exact ⟨h.always, fun _ _ => h.smoothly a rfl⟩

theorem map {o : Except ε α} {s s' : σ} (h : M.Sees o s s') (f : α → β) :
    M.Sees (o.map f) s s' := by
  cases o with
  | error e => exact Monitor.sees_error h.always
  | ok a => exact ⟨h.always, fun _ _ => h.smoothly a rfl⟩

end Watched

namespace Faulty

variable {σ κ ε α : Type} [Store σ κ]

/-- A call may be struck if it fails, and spends faults but makes none. -/
def Notes (outcome : Except ε α) (s s' : Faulty σ) : Prop :=
  Watched (fun s s' => s.strikes ≤ s'.strikes ∧ Fault.Leaves s.faults s'.faults)
    (fun s s' => s.strikes = s'.strikes) outcome s s'

theorem notes_struck {s : Faulty σ} {fs : List Fault} (h : Fault.Leaves s.faults fs)
    (e : ε) : Notes (.error e : Except ε α) s (s.struck fs) :=
  ⟨⟨by simp, h⟩, fun _ he => nomatch he⟩

theorem notes_passed {s : Faulty σ} {fs : List Fault} (h : Fault.Leaves s.faults fs)
    (o : Except ε α) (x : σ) : Notes o s (s.passed fs x) :=
  ⟨⟨by simp, h⟩, fun _ _ => rfl⟩

/-- Counts the strikes: a call that succeeds was not struck. -/
def monitor : Monitor (Faulty σ) where
  always s s' := s.strikes ≤ s'.strikes ∧ Fault.Leaves s.faults s'.faults
  smoothly s s' := s.strikes = s'.strikes
  always_refl s := ⟨Nat.le_refl _, fun _ h => h⟩
  always_trans h h' := ⟨Nat.le_trans h.1 h'.1, h.2.trans h'.2⟩
  smoothly_refl _ := rfl
  smoothly_trans h h' := h.trans h'
  connect s := by
    obtain ⟨fs, hl, h | h⟩ := connect_cases s <;> rw [h]
    · exact notes_struck hl _
    · exact notes_passed hl _ _
  prepare t c s := by
    obtain ⟨fs, hl, h | h⟩ := prepare_cases t c s <;> rw [h]
    · exact notes_struck hl _
    · exact notes_passed hl _ _
  addRow r c s := by
    obtain ⟨fs, hl, h | h⟩ := addRow_cases r c s <;> rw [h]
    · exact notes_struck hl _
    · exact notes_passed hl _ _
  execute c s := by
    obtain ⟨fs, hl, h | ⟨_, h⟩ | h⟩ := execute_cases c s <;> rw [h]
    · exact notes_struck hl _
    · exact notes_struck hl _
    · exact notes_passed hl _ _
  commit c s := by
    obtain ⟨fs, hl, h | h⟩ := commit_cases c s <;> rw [h]
    · exact notes_struck hl _
    · exact notes_passed hl _ _
  rollback c s := by
    obtain ⟨fs, hl, h | h⟩ := rollback_cases c s <;> rw [h]
    · exact notes_struck hl _
    · exact notes_passed hl _ _
  close c s := by
    obtain ⟨fs, hl, ⟨_, h⟩ | h⟩ := close_cases c s <;> rw [h]
    · exact ⟨⟨by simp, hl⟩, fun _ he => nomatch he⟩
    · exact notes_passed hl _ _

end Faulty
end MapLoader
