import Mathlib.Data.List.Basic
import MapLoader.Proofs.Database.Migration

/-! The steps that make the tables or the indexes are done all together or not at all. Whether a
step can be done does not depend on the steps before it, so the first one that cannot be done can
be told from the database alone; and once all are done, doing them again changes nothing. -/

namespace MapLoader

namespace SchemaStep

/-- There is something of the name already. For a table that may be a view. -/
def present : SchemaStep → Database → Bool
  | table t, d => d.hasRelation t.name
  | index _ plan, d => (d.index? plan.name).isSome

/-- What a step needs: a table's name must not be that of an index, and an index needs its table
with the columns that it names, and a name that is no table's or view's. -/
def Possible : SchemaStep → Database → Prop
  | table t, d => d.hasRelation t.name = true ∨ d.index? t.name = none
  | index _ plan, d => ∃ s, d.table? plan.table = some s ∧ d.hasRelation plan.name = false ∧
    ((d.index? plan.name).isSome = true ∨
      ∀ c ∈ plan.columns, ∃ column ∈ s.columns, sameName column.name c = true)

def newTable? : SchemaStep → Database → Option StoredTable
  | table t, d => if d.hasRelation t.name then none else some t.stored
  | index _ _, _ => none

def newIndex? : SchemaStep → Database → Option StoredIndex
  | table _, _ => none
  | index _ plan, d =>
    if (d.index? plan.name).isSome then none
    else (d.table? plan.table).map fun s => ⟨plan.name, s.name, plan.storedStatement⟩

/-- Two steps that make objects of one sort under different names. -/
def apart : SchemaStep → SchemaStep → Bool
  | table t, table u => !sameName t.name u.name
  | index _ p, index _ q => !sameName p.name q.name
  | _, _ => false

end SchemaStep

namespace Database

/-- The database with more tables and indexes, after those that it has. -/
def extend (d : Database) (tables : List StoredTable) (indexes : List StoredIndex) : Database :=
  { d with tables := d.tables ++ tables, indexes := d.indexes ++ indexes }

def extendBy (d : Database) (steps : List SchemaStep) : Database :=
  d.extend (steps.filterMap fun s => s.newTable? d) (steps.filterMap fun s => s.newIndex? d)

@[simp] theorem extend_nil (d : Database) : d.extend [] [] = d := by simp [extend]

theorem extend_extend (d : Database) (ts us : List StoredTable) (is js : List StoredIndex) :
    (d.extend ts is).extend us js = d.extend (ts ++ us) (is ++ js) := by
  simp [extend]

theorem missing?_eq_none_iff (s : StoredTable) (columns : List String) :
    missing? s columns = none ↔
      ∀ c ∈ columns, ∃ column ∈ s.columns, sameName column.name c = true := by
  simp only [missing?, List.find?_eq_none, Bool.not_eq_true', Bool.not_eq_false,
    List.any_eq_true]
  constructor
  · intro h c hc
    obtain ⟨i, hi, rfl⟩ := List.mem_iff_getElem.1 hc
    exact h (columns[i], i) (by simpa using List.mk_mem_zipIdx_iff_getElem?.2 (by simp [hi]))
  · rintro h ⟨c, i⟩ hc
    exact h c (List.fst_mem_of_mem_zipIdx hc)

theorem extendBy_table (d : Database) (t : Table) : d.extendBy [.table t] =
    if d.hasRelation t.name then d else { d with tables := d.tables ++ [t.stored] } := by
  by_cases h : d.hasRelation t.name = true <;>
    simp [extendBy, SchemaStep.newTable?, SchemaStep.newIndex?, extend, h]

theorem extendBy_index (d : Database) (name : String) (plan : IndexPlan) {s : StoredTable}
    (hs : d.table? plan.table = some s) : d.extendBy [.index name plan] =
      if (d.index? plan.name).isSome then d
      else { d with indexes := d.indexes ++ [⟨plan.name, s.name, plan.storedStatement⟩] } := by
  by_cases h : (d.index? plan.name).isSome = true <;>
    simp [extendBy, SchemaStep.newTable?, SchemaStep.newIndex?, extend, h, hs]

end Database

namespace SchemaStep

open Database

variable {d d' : Database} {s u : SchemaStep}

theorem createTable_eq_ok_iff {t : Table} : d.createTable t.stored = .ok d' ↔
    (SchemaStep.table t).Possible d ∧ d' = d.extendBy [.table t] := by
  have hname : t.stored.name = t.name := rfl
  simp only [createTable, hname, extendBy_table, Possible]
  by_cases hr : d.hasRelation t.name = true
  · simp [hr, @eq_comm _ d]
  · cases hi : d.index? t.name <;> simp [hr, @eq_comm _ d']

theorem createIndex_eq_ok_iff {name : String} {plan : IndexPlan} :
    d.createIndex plan = .ok d' ↔
      (SchemaStep.index name plan).Possible d ∧ d' = d.extendBy [.index name plan] := by
  cases ht : d.table? plan.table with
  | none => simp [createIndex, Possible, ht]
  | some s =>
    simp only [createIndex, Possible, ht, extendBy_index d name plan ht, Option.some.injEq,
      exists_eq_left', ← missing?_eq_none_iff]
    by_cases hr : d.hasRelation plan.name = true
    · simp [hr]
    by_cases hi : (d.index? plan.name).isSome = true
    · simp [hr, hi, @eq_comm _ d]
    · cases hm : missing? s plan.columns <;> simp [hr, hi, @eq_comm _ d']

/-- A step that can be done does nothing if its object is there, and else adds the object. -/
theorem apply_eq_ok_iff : s.apply d = .ok d' ↔ s.Possible d ∧ d' = d.extendBy [s] := by
  cases s with
  | table t => exact createTable_eq_ok_iff
  | index name plan => exact createIndex_eq_ok_iff

theorem apart_comm (s u : SchemaStep) : s.apart u = u.apart s := by
  cases s <;> cases u <;> simp [apart, sameName_comm]

theorem eq_table_of_newTable? {t : StoredTable} (h : s.newTable? d = some t) :
    ∃ u : Table, s = .table u ∧ t = u.stored := by
  cases s with
  | table u =>
    simp only [newTable?] at h
    split at h
    · cases h
    · exact ⟨u, rfl, (Option.some.inj h).symm⟩
  | index _ _ => cases h

theorem eq_index_of_newIndex? {i : StoredIndex} (h : s.newIndex? d = some i) :
    ∃ name plan, s = .index name plan ∧ i.name = plan.name := by
  cases s with
  | table _ => cases h
  | index name plan =>
    simp only [newIndex?] at h
    split at h
    · cases h
    · obtain ⟨_, -, rfl⟩ := Option.map_eq_some_iff.1 h
      exact ⟨name, plan, rfl, rfl⟩

theorem table?_extendBy {steps : List SchemaStep} {name : String}
    (h : ∀ t, .table t ∈ steps → sameName t.name name = false) :
    (d.extendBy steps).table? name = d.table? name := by
  have hnone : (steps.filterMap fun s => s.newTable? d).find?
      (fun t => sameName t.name name) = none := by
    refine List.find?_eq_none.2 fun t ht => ?_
    obtain ⟨s, hs, hst⟩ := List.mem_filterMap.1 ht
    obtain ⟨u, rfl, rfl⟩ := eq_table_of_newTable? hst
    exact Bool.eq_false_iff.1 (h u hs)
  rw [table?, extendBy, extend, List.find?_append, hnone, Option.or_none, table?]

theorem index?_extendBy {steps : List SchemaStep} {name : String}
    (h : ∀ step plan, .index step plan ∈ steps → sameName plan.name name = false) :
    (d.extendBy steps).index? name = d.index? name := by
  have hnone : (steps.filterMap fun s => s.newIndex? d).find?
      (fun i => sameName i.name name) = none := by
    refine List.find?_eq_none.2 fun i hi => ?_
    obtain ⟨s, hs, hsi⟩ := List.mem_filterMap.1 hi
    obtain ⟨step, plan, rfl, hname⟩ := eq_index_of_newIndex? hsi
    rw [hname]
    exact Bool.eq_false_iff.1 (h step plan hs)
  rw [index?, extendBy, extend, List.find?_append, hnone, Option.or_none, index?]

theorem hasRelation_extendBy {steps : List SchemaStep} {name : String}
    (h : ∀ t, .table t ∈ steps → sameName t.name name = false) :
    (d.extendBy steps).hasRelation name = d.hasRelation name := by
  rw [hasRelation, hasRelation, table?_extendBy h]
  rfl

theorem frame {steps : List SchemaStep} (h : ∀ b ∈ steps, b.apart u = true) :
    (u.Possible (d.extendBy steps) ↔ u.Possible d) ∧
      u.newTable? (d.extendBy steps) = u.newTable? d ∧
      u.newIndex? (d.extendBy steps) = u.newIndex? d := by
  cases u with
  | table t =>
    have hrelation : (d.extendBy steps).hasRelation t.name = d.hasRelation t.name :=
      hasRelation_extendBy fun v hv => by simpa [apart] using h _ hv
    have hindex : (d.extendBy steps).index? t.name = d.index? t.name :=
      index?_extendBy fun _ _ hp => by simpa [apart] using h _ hp
    refine ⟨?_, ?_, rfl⟩
    · rw [Possible, Possible, hrelation, hindex]
    · rw [newTable?, newTable?, hrelation]
  | index name plan =>
    have hno : ∀ name v, .table v ∈ steps → sameName v.name name = false := fun _ v hv => by
      simpa [apart] using h _ hv
    have hindex : (d.extendBy steps).index? plan.name = d.index? plan.name :=
      index?_extendBy fun _ _ hp => by simpa [apart] using h _ hp
    refine ⟨?_, rfl, ?_⟩
    · simp only [Possible, hasRelation_extendBy (hno _), table?_extendBy (hno _), hindex]
    · simp only [newIndex?, table?_extendBy (hno _), hindex]

theorem frame_single (h : s.apart u = true) (d : Database) :
    (u.Possible (d.extendBy [s]) ↔ u.Possible d) ∧
      u.newTable? (d.extendBy [s]) = u.newTable? d ∧
      u.newIndex? (d.extendBy [s]) = u.newIndex? d :=
  frame (List.forall_mem_singleton.2 h)

/-- Nothing is left to do for a step. -/
structure Settled (s : SchemaStep) (d : Database) : Prop where
  possible : s.Possible d
  newTable? : s.newTable? d = none
  newIndex? : s.newIndex? d = none

theorem Settled.present (h : s.Settled d) : s.present d = true := by
  cases s with
  | table t => simpa [SchemaStep.newTable?, SchemaStep.present] using h.newTable?
  | index name plan =>
    obtain ⟨t, ht, -⟩ := h.possible
    simpa [SchemaStep.newIndex?, SchemaStep.present, ht, Option.isSome_iff_ne_none]
      using h.newIndex?

/-- Steps that are apart from it leave a step settled. -/
theorem Settled.extendBy {steps : List SchemaStep} (hs : s.Settled d)
    (h : ∀ b ∈ steps, b.apart s = true) : s.Settled (d.extendBy steps) := by
  obtain ⟨hp, ht, hi⟩ := frame (d := d) h
  exact ⟨hp.2 hs.possible, ht.trans hs.newTable?, hi.trans hs.newIndex?⟩

theorem Possible.settled (h : s.Possible d) : s.Settled (d.extendBy [s]) := by
  cases s with
  | table t =>
    have hpresent : (d.extendBy [.table t]).hasRelation t.name = true := by
      rw [extendBy_table]
      split
      · assumption
      · rw [hasRelation, table?_append]
        simp [Table.stored]
    exact ⟨.inl hpresent, if_pos hpresent, rfl⟩
  | index name plan =>
    obtain ⟨t, ht, hr, hc⟩ := h
    have hno : ∀ name v, .table v ∈ [index name plan] → sameName v.name name = false := by simp
    have hpresent : ((d.extendBy [.index name plan]).index? plan.name).isSome = true := by
      rw [extendBy_index d name plan ht]
      split
      · assumption
      · rw [index?_append]
        simp
    refine ⟨⟨t, ?_, ?_, .inl hpresent⟩, rfl, if_pos hpresent⟩
    · rwa [table?_extendBy (by simp)]
    · rwa [hasRelation_extendBy (by simp)]

end SchemaStep

namespace Database

open SchemaStep

variable {d d' : Database} {steps : List SchemaStep}

theorem extendBy_cons {s : SchemaStep} (h : ∀ u ∈ steps, s.apart u = true) :
    (d.extendBy [s]).extendBy steps = d.extendBy (s :: steps) := by
  rw [extendBy, List.filterMap_congr fun u hu => (frame_single (h u hu) d).2.1,
    List.filterMap_congr fun u hu => (frame_single (h u hu) d).2.2, extendBy, extend_extend,
    ← List.filterMap_append, ← List.filterMap_append]
  rfl

/-- Steps that are apart from one another succeed together just if each of them is possible to
begin with. -/
theorem applySteps_eq_ok_iff (hs : steps.Pairwise fun s u => s.apart u = true) :
    d.applySteps steps = .ok d' ↔ (∀ s ∈ steps, s.Possible d) ∧ d' = d.extendBy steps := by
  induction steps generalizing d with
  | nil => simp [applySteps, extendBy, @eq_comm _ d]
  | cons s rest ih =>
    obtain ⟨hhead, htail⟩ := List.pairwise_cons.1 hs
    rw [applySteps, List.forall_mem_cons]
    cases happ : s.apply d with
    | error e =>
      have hno : ¬ s.Possible d := fun hp => by cases happ.symm.trans (apply_eq_ok_iff.2 ⟨hp, rfl⟩)
      simp [hno]
    | ok d₁ =>
      obtain ⟨hp, rfl⟩ := apply_eq_ok_iff.1 happ
      simp only [ih htail, extendBy_cons hhead, hp, true_and]
      refine and_congr_left fun _ => forall₂_congr fun u hu => ?_
      exact (frame_single (hhead u hu) d).1

/-- Once all steps have been done, none of them has anything left to do. -/
theorem settled_extendBy (hs : steps.Pairwise fun s u => s.apart u = true)
    (hp : ∀ s ∈ steps, s.Possible d) : ∀ s ∈ steps, s.Settled (d.extendBy steps) := by
  induction steps generalizing d with
  | nil => exact List.forall_mem_nil _
  | cons s rest ih =>
    obtain ⟨hhead, htail⟩ := List.pairwise_cons.1 hs
    obtain ⟨hps, hprest⟩ := List.forall_mem_cons.1 hp
    rw [← extendBy_cons hhead]
    refine List.forall_mem_cons.2 ⟨?_, ih htail fun u hu => ?_⟩
    · exact hps.settled.extendBy fun b hb => (apart_comm b s).trans (hhead b hb)
    · exact (frame_single (hhead u hu) d).1.2 (hprest u hu)

theorem extendBy_of_settled (h : ∀ s ∈ steps, s.Settled d) : d.extendBy steps = d := by
  rw [extendBy, List.filterMap_eq_nil_iff.2 fun s hs => (h s hs).newTable?,
    List.filterMap_eq_nil_iff.2 fun s hs => (h s hs).newIndex?, extend_nil]

/-- A run of steps ends in an error at the first step that fails. -/
theorem exists_of_applySteps_error {e : SchemaError} (h : d.applySteps steps = .error e) :
    ∃ before s after draft, steps = before ++ s :: after ∧ d.applySteps before = .ok draft ∧
      s.apply draft = .error e.source ∧ e.step = s.name := by
  induction steps generalizing d with
  | nil => cases h
  | cons s rest ih =>
    rw [applySteps] at h
    cases happ : s.apply d with
    | error cause =>
      rw [happ] at h
      obtain rfl := Except.error.inj h
      exact ⟨[], s, rest, d, rfl, rfl, happ, rfl⟩
    | ok d₁ =>
      rw [happ] at h
      obtain ⟨before, u, after, draft, rfl, hbefore, hu, hname⟩ := ih h
      exact ⟨s :: before, u, after, draft, rfl, by rw [applySteps, happ]; exact hbefore, hu, hname⟩

inductive Migrated (steps : List SchemaStep) (d : Database) :
    Except SchemaError Unit × Database → Prop
  /-- Everything that was missing has been added, after what was there; all names are taken now,
  and doing it again changes nothing. -/
  | done : (∀ s ∈ steps, s.Possible d) → (∀ s ∈ steps, s.present (d.extendBy steps) = true) →
    (d.extendBy steps).migrate steps = (.ok (), d.extendBy steps) →
    Migrated steps d (.ok (), d.extendBy steps)
  /-- The steps before the first impossible one have been done, and are taken back. -/
  | failed {before after : List SchemaStep} {s : SchemaStep} {cause : DatabaseError} :
    steps = before ++ s :: after → (∀ b ∈ before, b.Possible d) → ¬ s.Possible d →
    d.applySteps before = .ok (d.extendBy before) →
    (∀ b ∈ before, b.present (d.extendBy before) = true) →
    s.apply (d.extendBy before) = .error cause →
    Migrated steps d (.error ⟨s.name, cause⟩, d)

theorem migrated_migrate (hs : steps.Pairwise fun s u => s.apart u = true) (d : Database) :
    Migrated steps d (d.migrate steps) := by
  unfold migrate
  cases h : d.applySteps steps with
  | ok d' =>
    obtain ⟨hp, rfl⟩ := (applySteps_eq_ok_iff hs).1 h
    have hsettled := settled_extendBy hs hp
    have hagain : (d.extendBy steps).applySteps steps = .ok (d.extendBy steps) :=
      (applySteps_eq_ok_iff hs).2
        ⟨fun s hmem => (hsettled s hmem).possible, (extendBy_of_settled hsettled).symm⟩
    exact .done hp (fun s hmem => (hsettled s hmem).present) (by rw [migrate, hagain])
  | error e =>
    obtain ⟨before, s, after, draft, rfl, hbefore, hcause, hname⟩ := exists_of_applySteps_error h
    obtain ⟨hsbefore, -, hcross⟩ := List.pairwise_append.1 hs
    obtain ⟨hp, rfl⟩ := (applySteps_eq_ok_iff hsbefore).1 hbefore
    have happart : ∀ b ∈ before, b.apart s = true := fun b hb => hcross b hb s List.mem_cons_self
    have hno : ¬ s.Possible d := fun hps => by
      cases hcause.symm.trans (apply_eq_ok_iff.2 ⟨(frame happart).1.2 hps, rfl⟩)
    obtain ⟨step, cause⟩ := e
    obtain rfl : step = s.name := hname
    exact .failed rfl hp hno hbefore
      (fun b hb => (settled_extendBy hsbefore hp b hb).present) hcause

/-- Making the six tables, and making the seven lookup indexes, is done as a whole or not at all,
on whatever the database holds already. -/
theorem schema_whole_or_not (d : Database) :
    Migrated tableSteps d d.bootstrap ∧ Migrated indexSteps d d.createIndexes :=
  ⟨migrated_migrate (by decide +kernel) d, migrated_migrate (by decide +kernel) d⟩

end Database
end MapLoader
