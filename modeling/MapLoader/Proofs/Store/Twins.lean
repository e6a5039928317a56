import MapLoader.Proofs.Store.Lockstep

/-! Stores in lockstep stay in lockstep when the same faults are put in front of both: a fault
strikes both or neither, and a call that is not struck is the call of the store inside. -/

namespace MapLoader

def Monitor.idle {σ κ : Type} [Store σ κ] : Monitor σ where
  always _ _ := True
  smoothly _ _ := True
  always_refl _ := trivial
  always_trans _ _ := trivial
  smoothly_refl _ := trivial
  smoothly_trans _ _ := trivial
  connect _ := ⟨trivial, fun _ _ => trivial⟩
  prepare _ _ _ := ⟨trivial, fun _ _ => trivial⟩
  addRow _ _ _ := ⟨trivial, fun _ _ => trivial⟩
  execute _ _ := ⟨trivial, fun _ _ => trivial⟩
  commit _ _ := ⟨trivial, fun _ _ => trivial⟩
  rollback _ _ := ⟨trivial, fun _ _ => trivial⟩
  close _ _ := ⟨trivial, fun _ _ => trivial⟩

namespace Faulty

variable {σ σ' κ κ' : Type}

/-- The same faults are left, and as many calls were struck. -/
structure Twins (R : σ → σ' → Prop) (s : Faulty σ) (s' : Faulty σ') : Prop where
  faults : s'.faults = s.faults
  strikes : s'.strikes = s.strikes
  inner : R s.inner s'.inner

structure TwinConnections (R : κ → κ' → σ → σ' → Prop) (c : Connection κ) (c' : Connection κ')
    (s : Faulty σ) (s' : Faulty σ') : Prop where
  table : c'.table = c.table
  stores : Twins (R c.inner c'.inner) s s'

/-- A call on a connection with faults in front of it. -/
def through {κ σ α : Type} (p : CallPoint) (operation : Operation)
    (call : κ → σ → Except StoreError α × κ × σ) (c : Connection κ) (s : Faulty σ) :
    Except StoreError α × Connection κ × Faulty σ :=
  match Fault.strike p c.table s.faults with
  | (true, faults) => (.error (.injected operation), c, s.struck faults)
  | (false, faults) =>
    ((call c.inner s.inner).1, c.around (call c.inner s.inner).2.1,
      s.passed faults (call c.inner s.inner).2.2)

theorem tallies_through {α : Type} {R : κ → κ' → σ → σ' → Prop} {c : Connection κ}
    {c' : Connection κ'} {s : Faulty σ} {s' : Faulty σ'} (p : CallPoint) (operation : Operation)
    (call : κ → σ → Except StoreError α × κ × σ) (call' : κ' → σ' → Except StoreError α × κ' × σ')
    (h : TwinConnections R c c' s s')
    (hcall : ∃ k x, call' c'.inner s'.inner = ((call c.inner s.inner).1, k, x) ∧
      R (call c.inner s.inner).2.1 k (call c.inner s.inner).2.2 x) :
    Tallies (fun _ => False) (TwinConnections R) (through p operation call c s)
      (through p operation call' c' s') := by
  obtain ⟨ht, hf, hs, hr⟩ := h
  obtain ⟨k, x, he, hk⟩ := hcall
  have hstrike : Fault.strike p c'.table s'.faults = Fault.strike p c.table s.faults := by
    rw [ht, hf]
  intro _
  unfold through
  rw [hstrike, he]
  obtain ⟨_ | _, fs⟩ := Fault.strike p c.table s.faults
  · exact ⟨_, _, rfl, ht, rfl, hs, hk⟩
  · exact ⟨_, _, rfl, ht, rfl, congrArg (· + 1) hs, hr⟩

variable [Store σ κ] [Store σ' κ']

/-- Lockstep is kept behind the same faults, if the first store never goes astray. -/
def twins (L : Lockstep σ σ') (hL : ∀ s, ¬ L.astray s) : Lockstep (Faulty σ) (Faulty σ') where
  monitor := monitor
  astray _ := False
  stays _ h := h
  apart := Twins L.apart
  linked := TwinConnections L.linked
  prepared t := TwinConnections (L.prepared t)
  linked_of_prepared h := ⟨h.table, h.stores.faults, h.stores.strikes,
    L.linked_of_prepared h.stores.inner⟩
  connect {s s'} := by
    rintro ⟨hf, hs, h⟩ -
    have hc := L.connect h (hL _)
    have hstrike : Fault.strike .connect none s'.faults = Fault.strike .connect none s.faults := by
      rw [hf]
    have hcall : Store.connect s = connect s := rfl
    have hcall' : Store.connect s' = connect s' := rfl
    rw [hcall, hcall']
    unfold connect
    rw [hstrike]
    obtain ⟨_ | _, fs⟩ := Fault.strike .connect none s.faults
    · dsimp only
      generalize Store.connect s.inner = x at hc
      obtain ⟨e | c, u⟩ := x
      · obtain ⟨u', he, hr⟩ := hc
        rw [he]
        exact ⟨_, rfl, rfl, hs, hr⟩
      · obtain ⟨c', u', he, hr⟩ := hc
        rw [he]
        exact ⟨_, _, rfl, rfl, rfl, hs, hr⟩
    · exact ⟨_, rfl, rfl, congrArg (· + 1) hs, h⟩
  prepare t {c c' s s'} := by
    rintro ⟨ht, hf, hs, h⟩ -
    have hp := L.prepare t h (hL _)
    have hstrike : Fault.strike .prepare (some t) s'.faults =
        Fault.strike .prepare (some t) s.faults := by rw [hf]
    have hcall : Store.prepare t c s = prepare t c s := rfl
    have hcall' : Store.prepare t c' s' = prepare t c' s' := rfl
    rw [hcall, hcall']
    unfold prepare
    dsimp only
    rw [hstrike]
    obtain ⟨_ | _, fs⟩ := Fault.strike .prepare (some t) s.faults
    · dsimp only
      generalize Store.prepare t c.inner s.inner = x at hp
      obtain ⟨e | _, d, u⟩ := x
      · obtain ⟨d', u', he, hr⟩ := hp
        rw [he]
        exact ⟨_, _, rfl, rfl, rfl, hs, hr⟩
      · obtain ⟨d', u', he, hr⟩ := hp
        rw [he]
        exact ⟨_, _, rfl, rfl, rfl, hs, hr⟩
    · exact ⟨_, _, rfl, rfl, rfl, congrArg (· + 1) hs, h⟩
  addRow {b r c c' s s'} hmem h :=
    tallies_through .addRow .bind (Store.addRow r) (Store.addRow r) h
      (L.addRow hmem h.stores.inner (hL _))
  pending h := L.pending h.stores.inner
  clearBatch h := ⟨h.table, h.stores.faults, h.stores.strikes, L.clearBatch h.stores.inner⟩
  execute {t c c' s s'} := by
    rintro ⟨ht, hf, hs, h⟩ -
    have hstrike (p : CallPoint) (fs : List Fault) : Fault.strike p c'.table fs =
        Fault.strike p c.table fs := by rw [ht]
    obtain ⟨d', u', he, hr⟩ := L.execute h (hL _)
    change ∃ d' u', execute c' s' = ((execute c s).1, d', u') ∧
      TwinConnections _ (execute c s).2.1 d' (execute c s).2.2 u'
    unfold execute
    rw [hf, hstrike, he]
    obtain ⟨_ | _, fs⟩ := Fault.strike .execute c.table s.faults
    · dsimp only
      rw [hstrike]
      obtain ⟨_ | _, fs'⟩ := Fault.strike .executeKeep c.table fs
      · exact ⟨_, _, rfl, ht, rfl, hs, hr⟩
      · exact ⟨_, _, rfl, ht, rfl, congrArg (· + 1) hs, h⟩
    · exact ⟨_, _, rfl, ht, rfl, congrArg (· + 1) hs, L.clearBatch h⟩
  commit h := tallies_through .commit .commit Store.commit Store.commit h
    (L.commit h.stores.inner (hL _))
  rollback h := tallies_through .rollback .rollback Store.rollback Store.rollback h
    (L.rollback h.stores.inner (hL _))
  close {c c' s s'} := by
    rintro ⟨ht, hf, hs, h⟩ -
    have hstrike : Fault.strike .close c'.table s'.faults =
        Fault.strike .close c.table s.faults := by rw [ht, hf]
    obtain ⟨u', he, hr⟩ := L.close h (hL _)
    change ∃ u', close c' s' = ((close c s).1, u') ∧ Twins _ (close c s).2 u'
    unfold close
    rw [he]
    dsimp only
    rw [hstrike]
    obtain ⟨_ | _, fs⟩ := Fault.strike .close c.table s.faults
    · exact ⟨_, rfl, rfl, hs, hr⟩
    · exact ⟨_, rfl, rfl, congrArg (· + 1) hs, hr⟩

end Faulty
end MapLoader
