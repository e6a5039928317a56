import MapLoader.Notice
import MapLoader.Row

/-! What one insert hands to the store: items for one table, and the rows that they expand to. -/

namespace MapLoader

structure Binding where
  row : Row
  notice : Option Notice := none
  deriving DecidableEq, Repr

/-- A user without a name is told, because the row holds a stand-in. -/
def User.binding (u : User) : Binding :=
  ⟨u.row, if u.name.isEmpty then some (.unnamedUser u.id) else none⟩

/-- The items of one insert. Member lists come with the id of their parent. -/
inductive Batch
  | users (items : List User)
  | nodes (items : List Node)
  | ways (items : List Way)
  | wayNodes (items : List (Int × List Int))
  | relations (items : List Relation)
  | relationMembers (items : List (Int × List Member))
  deriving DecidableEq

namespace Batch

def table : Batch → Table
  | users _ => .users
  | nodes _ => .nodes
  | ways _ => .ways
  | wayNodes _ => .wayNodes
  | relations _ => .relations
  | relationMembers _ => .relationMembers

def bindings : Batch → List Binding
  | users items => items.map User.binding
  | nodes items => items.map fun n => { row := n.row }
  | ways items => items.map fun w => { row := w.row }
  | wayNodes items =>
    items.flatMap fun (id, refs) => (MapLoader.wayNodes id refs).map fun w => { row := w.row }
  | relations items => items.map fun r => { row := r.row }
  | relationMembers items =>
    items.flatMap fun (id, members) =>
      (MapLoader.relationMembers id members).map fun m => { row := m.row }

def rows (b : Batch) : List Row := b.bindings.map Binding.row

end Batch

theorem Batch.length_row {b : Batch} {r : Row} (h : r ∈ b.rows) : r.length = b.table.arity := by
  cases b <;>
    simp only [rows, bindings, List.map_map, List.map_flatMap, List.mem_map, List.mem_flatMap,
      Function.comp] at h <;>
    obtain ⟨_, _, h⟩ := h
  case wayNodes | relationMembers => obtain ⟨_, _, rfl⟩ := h; rfl
  all_goals subst h; rfl

end MapLoader
