import MapLoader.Database.Schema
import MapLoader.Proofs.Store.Transactions

/-! What inserting rows does to a database: all of them go to the end of their table if the table
admits each, and otherwise none does. Everything else stays. -/

namespace MapLoader

@[simp] theorem sameName_self (a : String) : sameName a a = true := by simp [sameName]

theorem sameName_comm (a b : String) : sameName a b = sameName b a := by
  simp [sameName, Bool.beq_comm]

theorem sameName_congr {a b : String} (h : sameName a b = true) (c : String) :
    sameName a c = sameName b c := by
  have hab : a.toLower = b.toLower := by simpa [sameName] using h
  simp [sameName, hab]

/-- The six tables are told apart even where the case of letters does not count. -/
theorem Table.sameName_eq_false {s t : Table} (h : s ≠ t) : sameName s.name t.name = false := by
  cases s <;> cases t <;> first | exact absurd rfl h | decide +kernel

namespace StoredTable

def cells (names : List String) (row : Row) (s : StoredTable) : List Cell :=
  s.columns.map (cellFor names row)

def Admits (names : List String) (s : StoredTable) (row : Row) : Prop :=
  s.violation? (s.cells names row) = none

def extend (names : List String) (rows : List Row) (s : StoredTable) : StoredTable :=
  { s with rows := s.rows ++ (rows.map fun r => s.cells names r).toArray }

variable {names : List String} {rows : List Row} {s s' : StoredTable}

@[simp] theorem extend_nil : s.extend names [] = s := by simp [extend]

theorem extend_append (more : List Row) :
    s.extend names (rows ++ more) = (s.extend names rows).extend names more := by
  simp [extend, cells]

theorem admits_extend {row : Row} : (s.extend names rows).Admits names row ↔ s.Admits names row :=
  Iff.rfl

theorem insert_eq_ok_iff {row : Row} :
    s.insert names row = (.ok (), s') ↔ s.Admits names row ∧ s' = s.extend names [row] := by
  have hcells : s.columns.map (cellFor names row) = s.cells names row := rfl
  unfold insert Admits
  dsimp only
  rw [hcells]
  cases s.violation? (s.cells names row) with
  | some e => simp
  | none => simp [extend, eq_comm]

theorem insertRows_eq_ok_iff : s.insertRows names rows = (.ok (), s') ↔
    (∀ r ∈ rows, s.Admits names r) ∧ s' = s.extend names rows := by
  induction rows generalizing s with
  | nil => simp [insertRows, eq_comm]
  | cons r rest ih =>
    unfold insertRows
    cases hr : s.insert names r with
    | mk o u =>
      cases o with
      | error e =>
        have hn : ¬ s.Admits names r := fun ha => by
          cases hr.symm.trans (insert_eq_ok_iff.2 ⟨ha, rfl⟩)
        simp [hn]
      | ok _ =>
        obtain ⟨ha, rfl⟩ := insert_eq_ok_iff.1 hr
        simp only [ih, admits_extend, ← extend_append, List.singleton_append,
          List.forall_mem_cons, ha, true_and]

end StoredTable

namespace Database

variable {d d' : Database} {t : Table} {s : StoredTable}

theorem target_eq_ok_iff : d.target t = .ok s ↔
    d.table? t.name = some s ∧ missing? s t.columns = none := by
  unfold target
  cases d.table? t.name with
  | none => simp
  | some u =>
    dsimp only
    split
    · rename_i c i hm
      have hne : ∀ h : u = s, ¬ missing? s t.columns = none := fun h => by simp [← h, hm]
      simpa using hne
    · rename_i hm
      simp only [Except.ok.injEq, Option.some.injEq]
      exact ⟨fun h => ⟨h, h ▸ hm⟩, fun h => h.1⟩

/-- The table of the rows takes inserts, and it admits every one of them. -/
def Takes (t : Table) (rows : List Row) (d : Database) : Prop :=
  ∃ s, d.target t = .ok s ∧ ∀ r ∈ rows, s.Admits t.columns r

theorem insertRows_eq_ok_iff {rows : List Row} : d.insertRows t rows = (.ok (), d') ↔
    ∃ s, d.target t = .ok s ∧ (∀ r ∈ rows, s.Admits t.columns r) ∧
      d' = d.replaceTable (s.extend t.columns rows) := by
  unfold insertRows
  cases d.target t with
  | error e => simp
  | ok s =>
    simp only [Except.ok.injEq, exists_eq_left', Prod.mk.injEq]
    constructor
    · rintro ⟨ho, rfl⟩
      obtain ⟨ha, hu⟩ := StoredTable.insertRows_eq_ok_iff.1 (Prod.ext ho rfl)
      exact ⟨ha, congrArg (replaceTable · d) hu⟩
    · rintro ⟨ha, rfl⟩
      rw [StoredTable.insertRows_eq_ok_iff.2 ⟨ha, rfl⟩]
      exact ⟨rfl, rfl⟩

theorem insertRows_fst_eq_ok_iff {rows : List Row} :
    (d.insertRows t rows).1 = .ok () ↔ d.Takes t rows := by
  constructor
  · intro h
    obtain ⟨s, hs, ha, -⟩ := insertRows_eq_ok_iff.1 (Prod.ext h rfl)
    exact ⟨s, hs, ha⟩
  · rintro ⟨s, hs, ha⟩
    rw [insertRows_eq_ok_iff.2 ⟨s, hs, ha, rfl⟩]

theorem table?_congr {a b : String} (h : sameName a b = true) : d.table? a = d.table? b :=
  congrArg (fun p => d.tables.find? p) (funext fun x => by
    rw [sameName_comm x.name, sameName_comm x.name, sameName_congr h])

theorem sameName_of_table? {name : String} (h : d.table? name = some s) :
    sameName s.name name = true := by
  unfold table? at h
  simpa using List.find?_some h

/-- A table that is replaced by one of its name is found in place of it, and no other is. -/
theorem table?_replaceTable {u : StoredTable} (hs : d.table? s.name = some s)
    (hu : u.name = s.name) (name : String) :
    (d.replaceTable u).table? name = if sameName s.name name then some u else d.table? name := by
  let f (x : StoredTable) : StoredTable := if x.name == u.name then u else x
  have hf (x : StoredTable) : (f x).name = x.name := by
    by_cases hx : x.name = u.name <;> simp [f, hx]
  have hmap : (d.replaceTable u).table? name = (d.table? name).map f := by
    have hp : ((fun x : StoredTable => sameName x.name name) ∘ f) =
        fun x => sameName x.name name := funext fun x => by simp [hf]
    simp only [table?, replaceTable]
    rw [show (fun x : StoredTable => if x.name == u.name then u else x) = f from rfl,
      List.find?_map, hp]
  rw [hmap]
  by_cases hn : sameName s.name name = true
  · rw [if_pos hn, ← table?_congr hn, hs]
    simp [f, hu]
  · rw [if_neg hn]
    cases hx : d.table? name with
    | none => rfl
    | some x =>
      have hne : x.name ≠ u.name := fun he => hn (hu ▸ he ▸ sameName_of_table? hx)
      simp [f, hne]

/-- A database that these batches have been added to: their rows are at the end of their tables
in the order of the batches, and nothing else is different. -/
structure Grown (origin : Database) (batches : List (Table × List Row)) (d : Database) :
    Prop where
  table? (t : Table) : d.table? t.name =
    (origin.table? t.name).map (StoredTable.extend t.columns (rowsFor t batches))
  other? {name : String} : (∀ t : Table, sameName t.name name = false) →
    d.table? name = origin.table? name
  views : d.views = origin.views
  indexes : d.indexes = origin.indexes
  journal : d.journal = origin.journal

namespace Grown

variable {origin d d' : Database} {batches : List (Table × List Row)} {t : Table}
  {rows : List Row}

theorem refl (d : Database) : Grown d [] d where
  table? t := by cases d.table? t.name <;> simp
  other? _ := rfl
  views := rfl
  indexes := rfl
  journal := rfl

theorem insertRows (h : Grown origin batches d) (hi : d.insertRows t rows = (.ok (), d')) :
    Grown origin (batches ++ [(t, rows)]) d' := by
  obtain ⟨s, hs, -, rfl⟩ := insertRows_eq_ok_iff.1 hi
  have hfind := (target_eq_ok_iff.1 hs).1
  have hname := sameName_of_table? hfind
  have hself : d.table? s.name = some s := (table?_congr hname).trans hfind
  have hget := table?_replaceTable hself (u := s.extend t.columns rows) rfl
  refine ⟨fun u => ?_, fun {name} hn => ?_, h.views, h.indexes, h.journal⟩
  · rw [hget, sameName_congr hname]
    by_cases hu : t = u
    · subst hu
      rw [if_pos (sameName_self _)]
      have ht := h.table? t
      rw [hfind] at ht
      obtain ⟨o, ho, rfl⟩ := Option.map_eq_some_iff.1 ht.symm
      simp [ho, StoredTable.extend_append]
    · rw [if_neg (by simp [Table.sameName_eq_false hu]), h.table? u]
      simp [hu]
  · rw [hget, sameName_congr hname, if_neg (by simp [hn t])]
    exact h.other? hn

end Grown

end Database
end MapLoader
