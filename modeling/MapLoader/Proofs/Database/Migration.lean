import MapLoader.Proofs.Database.Insertion

/-! Making the tables and the lookup indexes of a database that may hold some of them already,
tables with rows among them. What is there stays as it is. -/

namespace MapLoader

/-- The index that is kept once it has been made. -/
def IndexPlan.made (p : IndexPlan) : StoredIndex := ⟨p.name, p.table, p.storedStatement⟩

namespace Database

/-- Every table is still there with the rows that it held. New rows come after them. -/
def Retains (d d' : Database) : Prop := ∀ name s, d.table? name = some s →
  ∃ more, d'.table? name = some { s with rows := s.rows ++ more }

theorem retains_of_table? {d d' : Database}
    (h : ∀ name s, d.table? name = some s → d'.table? name = some s) : d.Retains d' :=
  fun name s hs => ⟨#[], by simpa using h name s hs⟩

namespace Retains

variable {d d₁ d₂ : Database}

theorem refl (d : Database) : d.Retains d := retains_of_table? fun _ _ h => h

theorem trans (h₁ : d.Retains d₁) (h₂ : d₁.Retains d₂) : d.Retains d₂ := by
  intro name s hs
  obtain ⟨more, hs₁⟩ := h₁ name s hs
  obtain ⟨more', hs₂⟩ := h₂ name _ hs₁
  exact ⟨more ++ more', by simpa using hs₂⟩

end Retains

theorem Grown.retains {origin d : Database} {batches : List (Table × List Row)}
    (h : Grown origin batches d) : origin.Retains d := by
  intro name s hs
  by_cases hn : ∃ t : Table, sameName t.name name = true
  · obtain ⟨t, ht⟩ := hn
    have hd := h.table? t
    rw [table?_congr ht, table?_congr ht, hs] at hd
    exact ⟨_, hd⟩
  · have hother : ∀ t : Table, sameName t.name name = false := fun t => by
      simpa using fun ht => hn ⟨t, ht⟩
    exact ⟨#[], by simpa using (h.other? hother).trans hs⟩

/-- Each of the six tables is there as the loader makes it, with any rows. -/
def Ready (d : Database) : Prop :=
  ∀ t : Table, ∃ rows, d.table? t.name = some { t.stored with rows }

/-- Any lookup index that is there is as the loader makes it. -/
def Planned (d : Database) : Prop :=
  ∀ e ∈ lookupIndexes, ∀ i, d.index? e.2.name = some i → i = e.2.made

/-- What a load can be given: any of the six tables may be there already, as the loader makes it
and with any rows, and so may any of the lookup indexes. -/
structure Loadable (d : Database) : Prop where
  tables (t : Table) :
    (∃ rows, d.table? t.name = some { t.stored with rows }) ∨ d.hasRelation t.name = false
  indexes : d.Planned

theorem table?_of_tables {d d' : Database} (h : d'.tables = d.tables) (name : String) :
    d'.table? name = d.table? name := by rw [table?, table?, h]

theorem Ready.congr {d d' : Database} (hd : d.Ready) (h : d'.tables = d.tables) : d'.Ready :=
  fun t => table?_of_tables h t.name ▸ hd t

/-- The rows of a table, none if there is no such table. -/
def held (d : Database) (t : Table) : List (List Cell) := ((d.rows? t.name).getD #[]).toList

section Tables

variable {d d' : Database}

theorem table?_eq_none_of_hasRelation {name : String} (h : d.hasRelation name = false) :
    d.table? name = none := by
  simp only [hasRelation, Bool.or_eq_false_iff, Option.isSome_eq_false_iff,
    Option.isNone_iff_eq_none] at h
  exact h.1

theorem createTable_cases {s : StoredTable} (h : d.createTable s = .ok d') :
    d.hasRelation s.name = true ∧ d' = d ∨
      d.hasRelation s.name = false ∧ d' = { d with tables := d.tables ++ [s] } := by
  unfold createTable at h
  split at h
  · exact .inl ⟨‹_›, (Except.ok.inj h).symm⟩
  · rename_i hr
    split at h
    · cases h
    · exact .inr ⟨by simpa using hr, (Except.ok.inj h).symm⟩

theorem table?_append (d : Database) (s : StoredTable) (name : String) :
    table? { d with tables := d.tables ++ [s] } name =
      (d.table? name).or (if sameName s.name name then some s else none) := by
  unfold table?
  rw [List.find?_append, List.find?_singleton]

/-- Tables have been made that were missing, and nothing else is different. -/
structure Furnished (ts : List Table) (d d' : Database) : Prop where
  kept {name : String} {s : StoredTable} : d.table? name = some s → d'.table? name = some s
  made : ∀ t ∈ ts, d.hasRelation t.name = false → d'.table? t.name = some t.stored
  views : d'.views = d.views
  indexes : d'.indexes = d.indexes

theorem furnished_of_applySteps {ts : List Table}
    (h : applySteps (ts.map SchemaStep.table) d = .ok d') : Furnished ts d d' := by
  induction ts generalizing d with
  | nil =>
    obtain rfl := Except.ok.inj h
    exact ⟨id, List.forall_mem_nil _, rfl, rfl⟩
  | cons t ts ih =>
    rw [List.map_cons, applySteps] at h
    split at h
    · cases h
    rename_i d₁ happ
    obtain ⟨hr, rfl⟩ | ⟨hr, rfl⟩ := createTable_cases happ
    · have hrest := ih h
      refine ⟨hrest.kept, ?_, hrest.views, hrest.indexes⟩
      rintro u (_ | ⟨_, hu⟩) hn
      · cases hr.symm.trans hn
      · exact hrest.made u hu hn
    -- what was there is found before the table that was made just now
    · have hrest := ih h
      refine ⟨fun hs => hrest.kept (by rw [table?_append, hs]; rfl), ?_, hrest.views,
        hrest.indexes⟩
      intro u hu hn
      by_cases htu : t = u
      · subst htu
        refine hrest.kept ?_
        rw [table?_append, table?_eq_none_of_hasRelation hn]
        exact if_pos (sameName_self _)
      · have hne : sameName t.stored.name u.name = false := Table.sameName_eq_false htu
        have hmem : u ∈ ts := (List.mem_cons.1 hu).resolve_left (Ne.symm htu)
        refine hrest.made u hmem ?_
        simp only [hasRelation, table?_append, hne, view?] at hn ⊢
        simpa using hn

theorem bootstrap_furnishes (h : d.bootstrap = (.ok (), d')) : Furnished Table.all d d' := by
  unfold bootstrap migrate at h
  split at h
  · obtain rfl := congrArg Prod.snd h
    exact furnished_of_applySteps ‹_›
  · cases h

namespace Furnished

variable {ts : List Table}

theorem of_journal {journal : JournalMode} (h : Furnished ts { d with journal } d') :
    Furnished ts d d' := ⟨h.kept, h.made, h.views, h.indexes⟩

theorem retains (h : Furnished ts d d') : d.Retains d' :=
  retains_of_table? fun _ _ hs => h.kept hs

/-- A table that was there has its rows, and one that was missing has none. -/
theorem table? (h : Furnished Table.all d d') (hd : d.Loadable) (t : Table) :
    d'.table? t.name = some { t.stored with rows := (d.held t).toArray } := by
  obtain ⟨rows, hs⟩ | hn := hd.tables t
  · rw [h.kept hs]
    simp [held, rows?, hs]
  · rw [h.made t t.mem_all hn]
    simp [held, rows?, table?_eq_none_of_hasRelation hn, Table.stored]

theorem ready (h : Furnished Table.all d d') (hd : d.Loadable) : d'.Ready :=
  fun t => ⟨_, h.table? hd t⟩

theorem held_eq (h : Furnished Table.all d d') (hd : d.Loadable) (t : Table) :
    d'.held t = d.held t := by
  simp [Database.held, rows?, h.table? hd t]

end Furnished
end Tables

section Indexes

variable {d d' : Database}

theorem createIndex_cases {p : IndexPlan} (h : d.createIndex p = .ok d') :
    ∃ s, d.table? p.table = some s ∧ ((∃ i, d.index? p.name = some i) ∧ d' = d ∨
      d' = { d with indexes := d.indexes ++ [⟨p.name, s.name, p.storedStatement⟩] }) := by
  unfold createIndex at h
  split at h
  · cases h
  rename_i s hs
  refine ⟨s, hs, ?_⟩
  split at h
  · cases h
  split at h
  · exact .inl ⟨Option.isSome_iff_exists.1 ‹_›, (Except.ok.inj h).symm⟩
  split at h
  · cases h
  · exact .inr (Except.ok.inj h).symm

theorem index?_append (d : Database) (i : StoredIndex) (name : String) :
    index? { d with indexes := d.indexes ++ [i] } name =
      (d.index? name).or (if sameName i.name name then some i else none) := by
  unfold index?
  rw [List.find?_append, List.find?_singleton]

/-- The lookup indexes are on the six tables. -/
theorem table_of_lookupIndexes :
    ∀ e ∈ lookupIndexes, ∃ t ∈ Table.all, e.2.table = t.name := by decide +kernel

/-- They are told apart even where the case of letters does not count. -/
theorem lookupIndexes_injective : ∀ e ∈ lookupIndexes, ∀ e' ∈ lookupIndexes,
    sameName e.2.name e'.2.name = true → e.2 = e'.2 := by decide +kernel

/-- Indexes have been made that were missing, each as it was planned. -/
structure Indexed (plans : List (String × IndexPlan)) (d d' : Database) : Prop where
  tables : d'.tables = d.tables
  kept {name : String} {i : StoredIndex} : d.index? name = some i → d'.index? name = some i
  made : ∀ e ∈ plans, d'.index? e.2.name = some e.2.made

theorem createIndex_indexed {e : String × IndexPlan} (he : e ∈ lookupIndexes) (hd : d.Ready)
    (hi : d.Planned) (h : d.createIndex e.2 = .ok d') : Indexed [e] d d' ∧ d'.Planned := by
  obtain ⟨s, hs, ⟨⟨i, hfound⟩, rfl⟩ | rfl⟩ := createIndex_cases h
  · obtain rfl := hi e he i hfound
    exact ⟨⟨rfl, id, by simpa using hfound⟩, hi⟩
  -- the index is kept under the name that the table has, which is the one in the plan
  obtain ⟨t, -, ht⟩ := table_of_lookupIndexes e he
  obtain ⟨rows, htable⟩ := hd t
  rw [ht, htable] at hs
  obtain rfl := Option.some.inj hs
  have hmade : (⟨e.2.name, t.name, e.2.storedStatement⟩ : StoredIndex) = e.2.made := by
    rw [IndexPlan.made, ht]
  have hadded := index?_append d e.2.made
  have hname : ({ t.stored with rows } : StoredTable).name = t.name := rfl
  rw [hname, hmade]
  refine ⟨⟨rfl, fun hfound => by rw [hadded, hfound]; rfl, ?_⟩, fun e' he' i hfound => ?_⟩
  · rw [List.forall_mem_singleton, hadded]
    cases hold : d.index? e.2.name with
    | some i => rw [hi e he i hold]; rfl
    | none => exact if_pos (sameName_self _)
  · rw [hadded] at hfound
    cases hold : d.index? e'.2.name with
    | some i' =>
      rw [hold] at hfound
      exact Option.some.inj hfound ▸ hi e' he' i' hold
    | none =>
      rw [hold, Option.none_or] at hfound
      split at hfound
      · rename_i hsame
        rw [← lookupIndexes_injective e he e' he' hsame]
        exact (Option.some.inj hfound).symm
      · cases hfound

theorem indexed_of_applySteps {plans : List (String × IndexPlan)}
    (hplans : ∀ e ∈ plans, e ∈ lookupIndexes) (hd : d.Ready) (hi : d.Planned)
    (h : applySteps (plans.map fun (name, plan) => SchemaStep.index name plan) d = .ok d') :
    Indexed plans d d' := by
  induction plans generalizing d with
  | nil =>
    obtain rfl := Except.ok.inj h
    exact ⟨rfl, id, List.forall_mem_nil _⟩
  | cons e plans ih =>
    obtain ⟨he, hplans⟩ := List.forall_mem_cons.1 hplans
    rw [List.map_cons, applySteps] at h
    split at h
    · cases h
    rename_i d₁ happ
    obtain ⟨hstep, hi₁⟩ := createIndex_indexed he hd hi happ
    have hrest := ih hplans (hd.congr hstep.tables) hi₁ h
    exact ⟨hrest.tables.trans hstep.tables, fun hfound => hrest.kept (hstep.kept hfound),
      List.forall_mem_cons.2 ⟨hrest.kept (hstep.made e (List.mem_singleton_self e)), hrest.made⟩⟩

theorem createIndexes_indexed (hd : d.Ready) (hi : d.Planned)
    (h : d.createIndexes = (.ok (), d')) : Indexed lookupIndexes d d' := by
  unfold createIndexes migrate at h
  split at h
  · obtain rfl := congrArg Prod.snd h
    exact indexed_of_applySteps (fun _ he => he) hd hi ‹_›
  · cases h

end Indexes
end Database
end MapLoader
