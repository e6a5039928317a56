import Mathlib.Algebra.GroupWithZero.Nat
import Mathlib.Data.List.SplitBy
import MapLoader.Session.Batch

/-! Lists of members as rows, and the lists that rows tell of. By the names of its columns a row
tells its parent, its member and its place; a new list begins at every place zero. What a batch of
lists is written as tells these lists again, but for the empty ones. -/

namespace MapLoader

namespace Table

def value? (t : Table) (column : String) (row : Row) : Option Value :=
  (t.columns.zip row).lookup column

def integer? (t : Table) (column : String) (r : Row) : Option Int :=
  match t.value? column r with
  | some (.integer n) => some n
  | _ => none

def text? (t : Table) (column : String) (r : Row) : Option String :=
  match t.value? column r with
  | some (.text s) => some s
  | _ => none

end Table

/-- How the lists of one table are written as rows, and how such a row is read. -/
structure ListForm (α : Type) where
  table : Table
  batch : List (Int × List α) → Batch
  /-- The row of a member in the list of a parent, at a place. -/
  row : Int → α → Nat → Row
  /-- The parent and the member that a row names. -/
  read? : Row → Option (Int × α)
  table_batch (lists : List (Int × List α)) : (batch lists).table = table
  rows_batch (lists : List (Int × List α)) : (batch lists).rows =
    lists.flatMap fun l => l.2.zipIdx.map fun m => row l.1 m.1 m.2
  read?_row (id : Int) (a : α) (i : Nat) : read? (row id a i) = some (id, a)
  place_row (id : Int) (a : α) (i : Nat) :
    table.integer? "sequence_id" (row id a i) = some (i : Int)

namespace ListForm

def ways : ListForm Int where
  table := .wayNodes
  batch := .wayNodes
  row id n i := WayNode.row ⟨id, n, i⟩
  read? r := do
    let id ← Table.wayNodes.integer? "way_id" r
    let n ← Table.wayNodes.integer? "node_id" r
    return (id, n)
  table_batch _ := rfl
  rows_batch lists := by
    simp [Batch.rows, Batch.bindings, wayNodes, List.map_flatMap, Function.comp_def]
  read?_row _ _ _ := rfl
  place_row _ _ _ := rfl

def relations : ListForm Member where
  table := .relationMembers
  batch := .relationMembers
  row id m i := RelationMember.row ⟨id, m, i⟩
  read? r := do
    let id ← Table.relationMembers.integer? "relation_id" r
    let member ← Table.relationMembers.integer? "member_id" r
    let kind ← (Table.relationMembers.text? "member_type" r).bind ElementKind.ofName?
    let role ← Table.relationMembers.text? "member_role" r
    return (id, ⟨member, kind, role⟩)
  table_batch _ := rfl
  rows_batch lists := by
    simp [Batch.rows, Batch.bindings, relationMembers, List.map_flatMap, Function.comp_def]
  read?_row id m i := by
    cases m with
    | mk member kind role => cases kind <;> rfl
  place_row _ _ _ := rfl

variable {α : Type} (F : ListForm α)

def expand (l : Int × List α) : List Row := l.2.zipIdx.map fun m => F.row l.1 m.1 m.2

def place? (r : Row) : Option Int := F.table.integer? "sequence_id" r

/-- Rows cut apart before every place zero. -/
def pieces (rows : List Row) : List (List Row) := rows.splitBy fun _ r => F.place? r != some 0

/-- The list that a piece tells of, if all its rows name one parent. -/
def list? (piece : List Row) : Option (Int × List α) :=
  match piece.mapM F.read? with
  | some ((id, a) :: rest) =>
    if rest.all fun m => m.1 = id then some (id, a :: rest.map Prod.snd) else none
  | _ => none

def lists? (rows : List Row) : Option (List (Int × List α)) := (F.pieces rows).mapM F.list?

@[simp] theorem length_expand (l : Int × List α) : (F.expand l).length = l.2.length := by
  simp [expand]

theorem places_expand (l : Int × List α) :
    (F.expand l).map F.place? = (List.range l.2.length).map fun i : Nat => some (i : Int) := by
  have hplace : F.place? ∘ (fun m : α × Nat => F.row l.1 m.1 m.2) =
      (fun i : Nat => some (i : Int)) ∘ Prod.snd := funext fun m => F.place_row l.1 m.1 m.2
  rw [expand, List.map_map, hplace, ← List.map_map, List.zipIdx_map_snd, List.range_eq_range']

theorem isChain_expand (l : Int × List α) :
    (F.expand l).IsChain fun _ r => F.place? r != some 0 := by
  rw [List.isChain_iff_getElem]
  intro i hi
  have hplace : F.place? (F.expand l)[i + 1] = some ((i + 1 : Nat) : Int) := by
    simp [expand, place?, F.place_row]
  rw [hplace]
  simp
  omega

/-- Where lists are written, the first row begins a list. -/
theorem place?_head_flatMap {lists : List (Int × List α)} {r : Row}
    (h : r ∈ (lists.flatMap F.expand).head?) : F.place? r = some 0 := by
  induction lists with
  | nil => simp at h
  | cons l lists ih =>
    obtain ⟨id, as⟩ := l
    cases as with
    | nil => exact ih (by simpa [expand] using h)
    | cons a as =>
      have hr : F.row id a 0 = r := by simpa [expand] using h
      rw [← hr]
      exact F.place_row id a 0

theorem pieces_flatMap (lists : List (Int × List α)) :
    F.pieces (lists.flatMap F.expand) = (lists.filter fun l => l.2 ≠ []).map F.expand := by
  induction lists with
  | nil => rfl
  | cons l lists ih =>
    by_cases hl : l.2 = []
    -- an empty list leaves no row behind, so nothing tells of it
    · have hnil : F.expand l = [] := by simp [expand, hl]
      simp [hnil, hl, ih]
    · have hne : F.expand l ≠ [] := by simpa [expand] using hl
      have hcut : F.pieces (F.expand l ++ lists.flatMap F.expand) =
          F.pieces (F.expand l) ++ F.pieces (lists.flatMap F.expand) :=
        List.splitBy_append fun x _ y hy => by simp [F.place?_head_flatMap hy]
      have hone : F.pieces (F.expand l) = [F.expand l] :=
        List.splitBy_of_isChain hne (F.isChain_expand l)
      rw [List.flatMap_cons, hcut, hone, ih]
      simp [hl]

theorem list?_expand {l : Int × List α} (h : l.2 ≠ []) : F.list? (F.expand l) = some l := by
  obtain ⟨id, as⟩ := l
  have hread : (F.expand (id, as)).mapM F.read? = some (as.map fun a => (id, a)) := by
    have hrow : F.read? ∘ (fun m : α × Nat => F.row id m.1 m.2) =
        fun m => pure ((Prod.mk id ∘ Prod.fst) m) := funext fun m => F.read?_row id m.1 m.2
    rw [expand, List.mapM_map, hrow, List.mapM_pure, ← List.map_map, List.zipIdx_map_fst]
    rfl
  cases as with
  | nil => exact absurd rfl h
  | cons a as => simp [list?, hread, Function.comp_def]

theorem lists?_flatMap (lists : List (Int × List α)) :
    F.lists? (lists.flatMap F.expand) = some (lists.filter fun l => l.2 ≠ []) := by
  have hread (kept : List (Int × List α)) (hk : ∀ l ∈ kept, l.2 ≠ []) :
      (kept.map F.expand).mapM F.list? = some kept := by
    induction kept with
    | nil => rfl
    | cons l kept ih =>
      have hl := F.list?_expand (hk l (by simp))
      have hrest := ih fun x hx => hk x (by simp [hx])
      simp [List.mapM_cons, hl, hrest]
  rw [lists?, F.pieces_flatMap]
  exact hread _ fun l hl => by simpa using (List.mem_filter.1 hl).2

/-- `n` rows that hold the lists: one for every member, with places that start at zero in each
list and rise by one, and they tell the lists in order but for those that are empty. -/
structure Unfolds (lists : List (Int × List α)) (n : Nat) (rows : List Row) : Prop where
  count : n = (lists.map fun l => l.2.length).sum
  places : rows.map F.place? =
    lists.flatMap fun l => (List.range l.2.length).map fun i : Nat => some (i : Int)
  lists? : F.lists? rows = some (lists.filter fun l => l.2 ≠ [])

/-- A batch of lists is written as rows that tell the lists. -/
theorem unfolds_batch (lists : List (Int × List α)) :
    F.Unfolds lists (F.batch lists).rows.length (F.batch lists).rows := by
  have hrows : (F.batch lists).rows = lists.flatMap F.expand := F.rows_batch lists
  rw [hrows]
  refine ⟨?_, ?_, F.lists?_flatMap lists⟩
  · simp [List.length_flatMap]
  · simp only [List.map_flatMap, places_expand]

/-- A place that is not zero does not begin a list, so two parents share this piece. -/
example : ways.lists? [WayNode.row ⟨5, 8, 0⟩, WayNode.row ⟨6, 9, 1⟩] = none := by decide

end ListForm
end MapLoader
