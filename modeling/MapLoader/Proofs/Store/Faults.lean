import MapLoader.Store.Faulty

/-! What faults do to single calls. A call that is struck fails and is counted; a call that is
not struck is the call of the store inside, whatever faults are left. -/

namespace MapLoader

namespace Fault

/-- No fault of the list strikes calls of this kind. -/
def Spares (p : CallPoint) (faults : List Fault) : Prop := ∀ f ∈ faults, f.point ≠ p

theorem point_mem_strike {q : CallPoint} {o : Option Table} {faults : List Fault} {f : Fault}
    (h : f ∈ (strike q o faults).2) : ∃ g ∈ faults, g.point = f.point := by
  induction faults with
  | nil => simp [strike] at h
  | cons g rest ih =>
    rw [strike] at h
    split at h
    · split at h
      · rcases List.mem_cons.1 h with rfl | h
        · exact ⟨g, by simp, rfl⟩
        · exact ⟨f, by simp [h], rfl⟩
      · rcases List.mem_cons.1 h with rfl | h
        · exact ⟨g, by simp, rfl⟩
        · obtain ⟨k, hk, hp⟩ := ih h
          exact ⟨k, by simp [hk], hp⟩
    · rcases List.mem_cons.1 h with rfl | h
      · exact ⟨f, by simp, rfl⟩
      · obtain ⟨k, hk, hp⟩ := ih h
        exact ⟨k, by simp [hk], hp⟩

theorem Spares.strike {p : CallPoint} {faults : List Fault} (h : Spares p faults)
    (q : CallPoint) (o : Option Table) : Spares p (Fault.strike q o faults).2 := by
  intro f hf
  obtain ⟨g, hg, hp⟩ := point_mem_strike hf
  exact hp ▸ h g hg

/-- Calls that no fault aims at are never struck. -/
theorem Spares.strike_eq {p : CallPoint} {faults : List Fault} (h : Spares p faults)
    (o : Option Table) : Fault.strike p o faults = (false, faults) := by
  induction faults with
  | nil => rfl
  | cons f rest ih =>
    have hf : f.concerns p o = false := by simp [concerns, h f (by simp)]
    simp [Fault.strike, hf, ih fun g hg => h g (by simp [hg])]

/-- Faults that may be left after a call: none aims at a kind of call that was spared before. -/
def Leaves (faults left : List Fault) : Prop := ∀ p, Spares p faults → Spares p left

theorem Leaves.strike (q : CallPoint) (o : Option Table) (faults : List Fault) :
    Leaves faults (Fault.strike q o faults).2 := fun _ h => h.strike q o

theorem Leaves.trans {a b c : List Fault} (h : Leaves a b) (h' : Leaves b c) : Leaves a c :=
  fun p hp => h' p (h p hp)

end Fault

namespace Faulty

variable {σ κ : Type}

def calm (s : Faulty σ) : Faulty σ := { s with faults := [] }

def passed (s : Faulty σ) (faults : List Fault) (inner : σ) : Faulty σ := { s with faults, inner }

@[simp] theorem inner_calm (s : Faulty σ) : s.calm.inner = s.inner := rfl
@[simp] theorem strikes_calm (s : Faulty σ) : s.calm.strikes = s.strikes := rfl

@[simp] theorem inner_struck (s : Faulty σ) (fs : List Fault) : (s.struck fs).inner = s.inner := rfl
@[simp] theorem faults_struck (s : Faulty σ) (fs : List Fault) : (s.struck fs).faults = fs := rfl
@[simp] theorem strikes_struck (s : Faulty σ) (fs : List Fault) :
    (s.struck fs).strikes = s.strikes + 1 := rfl

@[simp] theorem inner_passed (s : Faulty σ) (fs : List Fault) (x : σ) :
    (s.passed fs x).inner = x := rfl
@[simp] theorem faults_passed (s : Faulty σ) (fs : List Fault) (x : σ) :
    (s.passed fs x).faults = fs := rfl
@[simp] theorem strikes_passed (s : Faulty σ) (fs : List Fault) (x : σ) :
    (s.passed fs x).strikes = s.strikes := rfl
@[simp] theorem calm_passed (s : Faulty σ) (fs : List Fault) (x : σ) :
    (s.passed fs x).calm = s.calm.passed [] x := rfl

def Connection.around (c : Connection κ) (inner : κ) : Connection κ := { c with inner }

@[simp] theorem Connection.inner_around (c : Connection κ) (x : κ) : (c.around x).inner = x := rfl

variable [Store σ κ]

theorem connect_cases (s : Faulty σ) : ∃ fs, Fault.Leaves s.faults fs ∧
    (Store.connect s = (.error (.injected .connect), s.struck fs) ∨
      Store.connect s = ((Store.connect s.inner).1.map fun c => { inner := c },
        s.passed fs (Store.connect s.inner).2)) := by
  refine ⟨_, Fault.Leaves.strike .connect none s.faults, ?_⟩
  change connect s = _ ∨ connect s = _
  unfold connect
  split <;> rename_i h
  · exact .inl (by rw [h])
  · exact .inr (by rw [h]; rfl)

theorem prepare_cases (t : Table) (c : Connection κ) (s : Faulty σ) :
    ∃ fs, Fault.Leaves s.faults fs ∧
      (Store.prepare t c s =
          (.error (.injected .prepare), { c with table := some t }, s.struck fs) ∨
        Store.prepare t c s = ((Store.prepare t c.inner s.inner).1,
          ⟨some t, (Store.prepare t c.inner s.inner).2.1⟩,
          s.passed fs (Store.prepare t c.inner s.inner).2.2)) := by
  refine ⟨_, Fault.Leaves.strike .prepare (some t) s.faults, ?_⟩
  change prepare t c s = _ ∨ prepare t c s = _
  unfold prepare
  dsimp only
  split <;> rename_i h
  · exact .inl (by rw [h])
  · exact .inr (by rw [h]; rfl)

theorem addRow_cases (r : Row) (c : Connection κ) (s : Faulty σ) :
    ∃ fs, Fault.Leaves s.faults fs ∧
      (Store.addRow r c s = (.error (.injected .bind), c, s.struck fs) ∨
        Store.addRow r c s = ((Store.addRow r c.inner s.inner).1,
          c.around (Store.addRow r c.inner s.inner).2.1,
          s.passed fs (Store.addRow r c.inner s.inner).2.2)) := by
  refine ⟨_, Fault.Leaves.strike .addRow c.table s.faults, ?_⟩
  change addRow r c s = _ ∨ addRow r c s = _
  unfold addRow
  split <;> rename_i h
  · exact .inl (by rw [h])
  · exact .inr (by rw [h]; rfl)

/-- A batch that is struck is dropped, unless a fault keeps it. -/
theorem execute_cases (c : Connection κ) (s : Faulty σ) :
    ∃ fs, Fault.Leaves s.faults fs ∧
      (Store.execute c s = (.error (.injected .execute),
          c.around (Store.clearBatch σ c.inner), s.struck fs) ∨
        (¬ Fault.Spares .executeKeep s.faults ∧
          Store.execute c s = (.error (.injected .execute), c, s.struck fs)) ∨
        Store.execute c s = ((Store.execute c.inner s.inner).1,
          c.around (Store.execute c.inner s.inner).2.1,
          s.passed fs (Store.execute c.inner s.inner).2.2)) := by
  have h₁ := Fault.Leaves.strike .execute c.table s.faults
  have h₂ := Fault.Leaves.strike .executeKeep c.table (Fault.strike .execute c.table s.faults).2
  change ∃ fs, _ ∧ (execute c s = _ ∨ (_ ∧ execute c s = _) ∨ execute c s = _)
  unfold execute
  split <;> rename_i fs h
  · exact ⟨fs, by simpa [h] using h₁, .inl rfl⟩
  · simp only [h] at h₁ h₂
    split <;> rename_i fs' h'
    · refine ⟨fs', by simpa [h'] using h₁.trans h₂, .inr (.inl ⟨fun hs => ?_, rfl⟩)⟩
      simp [(h₁ _ hs).strike_eq] at h'
    · exact ⟨fs', by simpa [h'] using h₁.trans h₂, .inr (.inr rfl)⟩

theorem commit_cases (c : Connection κ) (s : Faulty σ) :
    ∃ fs, Fault.Leaves s.faults fs ∧
      (Store.commit c s = (.error (.injected .commit), c, s.struck fs) ∨
        Store.commit c s = ((Store.commit c.inner s.inner).1,
          c.around (Store.commit c.inner s.inner).2.1,
          s.passed fs (Store.commit c.inner s.inner).2.2)) := by
  refine ⟨_, Fault.Leaves.strike .commit c.table s.faults, ?_⟩
  change commit c s = _ ∨ commit c s = _
  unfold commit
  split <;> rename_i h
  · exact .inl (by rw [h])
  · exact .inr (by rw [h]; rfl)

theorem rollback_cases (c : Connection κ) (s : Faulty σ) :
    ∃ fs, Fault.Leaves s.faults fs ∧
      (Store.rollback c s = (.error (.injected .rollback), c, s.struck fs) ∨
        Store.rollback c s = ((Store.rollback c.inner s.inner).1,
          c.around (Store.rollback c.inner s.inner).2.1,
          s.passed fs (Store.rollback c.inner s.inner).2.2)) := by
  refine ⟨_, Fault.Leaves.strike .rollback c.table s.faults, ?_⟩
  change rollback c s = _ ∨ rollback c s = _
  unfold rollback
  split <;> rename_i h
  · exact .inl (by rw [h])
  · exact .inr (by rw [h]; rfl)

theorem close_cases (c : Connection κ) (s : Faulty σ) :
    ∃ fs, Fault.Leaves s.faults fs ∧
      ((¬ Fault.Spares .close s.faults ∧ Store.close c s = (.error (.injected .close),
          (s.passed s.faults (Store.close c.inner s.inner).2).struck fs)) ∨
        Store.close c s = ((Store.close c.inner s.inner).1,
          s.passed fs (Store.close c.inner s.inner).2)) := by
  refine ⟨_, Fault.Leaves.strike .close c.table s.faults, ?_⟩
  change (_ ∧ close c s = _) ∨ close c s = _
  unfold close
  dsimp only
  split <;> rename_i h
  · refine .inl ⟨fun hs => ?_, by rw [h]; rfl⟩
    simp [hs.strike_eq] at h
  · exact .inr (by rw [h]; rfl)

end Faulty
end MapLoader
