import MapLoader.Proofs.Database.Insertion
import MapLoader.Session.Batch

/-! The rows that a session builds fit the tables: every value goes into the column that it is
meant for, unchanged but for points, which become text, and breaks no rule of that column. -/

namespace MapLoader

/-- A column keeps a value as it is bound and has no rule against it. -/
structure Column.Fits (c : Column) (v : Value) : Prop where
  kept : c.affinity.apply v.cell = v.cell
  present : c.required = true → v.cell ≠ .null
  listed : ∀ allowed, c.allowed = some allowed → ∃ s ∈ allowed, v.cell = .text s

/-- Every value of a row fits the column at its place. -/
def Row.Fits (columns : List Column) (r : Row) : Prop :=
  r.length = columns.length ∧ ∀ e ∈ columns.zip r, e.1.Fits e.2

namespace Row

@[simp] theorem fits_nil : Row.Fits [] [] := ⟨rfl, by simp⟩

@[simp] theorem fits_cons {c : Column} {columns : List Column} {v : Value} {r : Row} :
    Row.Fits (c :: columns) (v :: r) ↔ c.Fits v ∧ Row.Fits columns r := by
  simp only [Row.Fits, List.length_cons, Nat.add_right_cancel_iff, List.zip_cons_cons,
    List.forall_mem_cons]
  exact ⟨fun ⟨hl, hv, hr⟩ => ⟨hv, hl, hr⟩, fun ⟨hv, hl, hr⟩ => ⟨hl, hv, hr⟩⟩

end Row

namespace StoredTable

theorem cellFor_cons {name : String} {names : List String} {v : Value} {r : Row} {c : Column} :
    cellFor (name :: names) (v :: r) c =
      if sameName name c.name then c.affinity.apply v.cell else cellFor names r c := by
  unfold cellFor
  rw [List.zip_cons_cons, List.find?_cons]
  cases sameName name c.name <;> rfl

theorem map_cellFor {columns : List Column} {r : Row}
    (hd : columns.Pairwise fun c d => sameName c.name d.name = false) (h : Row.Fits columns r) :
    columns.map (cellFor (columns.map Column.name) r) = r.map Value.cell := by
  induction columns generalizing r with
  | nil =>
    cases r with
    | nil => rfl
    | cons v r => cases h.1
  | cons c columns ih =>
    cases r with
    | nil => cases h.1
    | cons v r =>
      obtain ⟨hc, hd⟩ := List.pairwise_cons.1 hd
      obtain ⟨hv, hr⟩ := Row.fits_cons.1 h
      have htail : columns.map (cellFor (c.name :: columns.map Column.name) (v :: r)) =
          columns.map (cellFor (columns.map Column.name) r) :=
        List.map_congr_left fun d hmem => by rw [cellFor_cons, hc d hmem]; rfl
      rw [List.map_cons, List.map_cons, List.map_cons, htail, ih hd hr, cellFor_cons,
        sameName_self, if_pos rfl, hv.kept]

theorem violation?_eq_none {s : StoredTable} {r : Row} (h : Row.Fits s.columns r) :
    s.violation? (r.map Value.cell) = none := by
  have hfit : ∀ e ∈ s.columns.zip (r.map Value.cell), ∃ v, e.1.Fits v ∧ e.2 = v.cell := by
    intro e he
    rw [List.zip_map_right] at he
    obtain ⟨x, hx, rfl⟩ := List.mem_map.1 he
    exact ⟨x.2, h.2 x hx, rfl⟩
  have hempty : (s.columns.zip (r.map Value.cell)).find?
      (fun e => e.1.required && e.2 == .null) = none := by
    refine List.find?_eq_none.2 fun e he => ?_
    obtain ⟨v, hv, hcell⟩ := hfit e he
    simpa [hcell] using hv.present
  unfold violation?
  dsimp only
  rw [hempty]
  dsimp only
  refine Option.map_eq_none_iff.2 (List.findSome?_eq_none_iff.2 fun e he => ?_)
  obtain ⟨v, hv, hcell⟩ := hfit e he
  cases ha : e.1.allowed with
  | none => simp
  | some allowed =>
    obtain ⟨t, ht, hvt⟩ := hv.listed allowed ha
    simp [hcell, hvt, ht]

end StoredTable

namespace Table

theorem fits_integer (name : String) (n : Int) : (integerColumn name).Fits (.integer n) where
  kept := rfl
  present _ := nofun
  listed _ h := nomatch h

theorem fits_text (name s : String) : (textColumn name).Fits (.text s) where
  kept := rfl
  present _ := nofun
  listed _ h := nomatch h

theorem fits_point (name : String) (p : Point) : (textColumn name).Fits (.point p) where
  kept := rfl
  present _ := nofun
  listed _ h := nomatch h

theorem fits_versionColumns (id : Int) (m : Metadata) {columns : List Column} {r : Row}
    (h : Row.Fits columns r) : Row.Fits (versionSchema ++ columns) (versionColumns id m ++ r) := by
  have htime : Column.Fits { name := "tstamp", affinity := .integer }
      (.ofOption m.timestampMillis) := by
    cases m.timestampMillis with
    | none => exact ⟨rfl, nofun, nofun⟩
    | some n => exact ⟨rfl, nofun, nofun⟩
  simp [versionSchema, versionColumns, fits_integer, htime, h]

theorem pairwise_schema (t : Table) :
    t.schema.Pairwise fun c d => sameName c.name d.name = false := by
  cases t <;> decide +kernel

end Table

theorem Batch.fits {b : Batch} {r : Row} (h : r ∈ b.rows) : Row.Fits b.table.schema r := by
  cases b <;>
    simp only [rows, bindings, List.map_map, List.map_flatMap, List.mem_map, List.mem_flatMap,
      Function.comp] at h <;>
    obtain ⟨_, _, h⟩ := h
  case users =>
    subst h
    simp [User.binding, User.row, table, Table.schema, Table.fits_integer, Table.fits_text]
  case nodes =>
    subst h
    exact Table.fits_versionColumns _ _ (by simp [Table.fits_point, Table.fits_text])
  case ways | relations =>
    subst h
    exact Table.fits_versionColumns _ _ (by simp [Table.fits_text])
  case wayNodes =>
    obtain ⟨_, _, rfl⟩ := h
    simp [WayNode.row, table, Table.schema, Table.fits_integer]
  case relationMembers =>
    obtain ⟨m, _, rfl⟩ := h
    have hkind : Column.Fits { Table.textColumn "member_type" with
        allowed := some ["Node", "Way", "Relation"] } (.text m.member.kind.name) := by
      refine ⟨rfl, fun _ => by simp [Value.cell], fun allowed ha => ⟨m.member.kind.name, ?_, rfl⟩⟩
      obtain rfl := Option.some.inj ha
      cases m.member.kind <;> decide
    simp [RelationMember.row, table, Table.schema, Table.fits_integer, Table.fits_text, hkind]

namespace Table

variable {t : Table} {r : Row}

theorem cells_stored (h : Row.Fits t.schema r) :
    t.stored.cells t.columns r = r.map Value.cell := by
  rw [← t.schema_names]
  exact StoredTable.map_cellFor t.pairwise_schema h

theorem admits_stored (h : Row.Fits t.schema r) : t.stored.Admits t.columns r := by
  unfold StoredTable.Admits
  rw [cells_stored h]
  exact StoredTable.violation?_eq_none h

end Table
end MapLoader
