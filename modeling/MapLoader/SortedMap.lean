/-! Finite maps kept as lists of pairs in strictly ascending key order, so that equal maps are
equal values and reading a map out always gives its keys in order. -/

namespace MapLoader

structure SortedMap (κ α : Type) [Ord κ] where
  entries : List (κ × α)
  ascending : entries.Pairwise (fun a b => compare a.1 b.1 = .lt)

namespace SortedMap

variable {κ α : Type} [Ord κ]

instance [DecidableEq κ] [DecidableEq α] : DecidableEq (SortedMap κ α) := fun a b =>
  if h : a.entries = b.entries then isTrue (by cases a; cases b; cases h; rfl)
  else isFalse fun e => h (e ▸ rfl)

def empty : SortedMap κ α := ⟨[], .nil⟩

instance : Inhabited (SortedMap κ α) := ⟨empty⟩

def toList (m : SortedMap κ α) : List (κ × α) := m.entries

def size (m : SortedMap κ α) : Nat := m.entries.length

def keys (m : SortedMap κ α) : List κ := m.entries.map Prod.fst

/-- A key that is already there keeps its place and takes the new value. -/
def insertEntry (k : κ) (a : α) : List (κ × α) → List (κ × α)
  | [] => [(k, a)]
  | e :: rest =>
    match compare k e.1 with
    | .lt => (k, a) :: e :: rest
    | .eq => (e.1, a) :: rest
    | .gt => e :: insertEntry k a rest

def find? (m : SortedMap κ α) (k : κ) : Option α :=
  (m.entries.find? fun e => compare k e.1 == .eq).map Prod.snd

def contains (m : SortedMap κ α) (k : κ) : Bool :=
  m.entries.any fun e => compare k e.1 == .eq

section Ordered

variable [Std.TransOrd κ]

private theorem mem_insertEntry {k : κ} {a : α} {x : κ × α} {l : List (κ × α)}
    (h : x ∈ insertEntry k a l) : compare x.1 k = .eq ∨ x ∈ l := by
  induction l with
  | nil =>
    simp only [insertEntry, List.mem_singleton] at h
    exact .inl (h ▸ Std.ReflCmp.compare_self)
  | cons e rest ih =>
    rw [insertEntry] at h
    split at h
    · rcases List.mem_cons.1 h with rfl | h
      · exact .inl Std.ReflCmp.compare_self
      · exact .inr h
    · rename_i he
      rcases List.mem_cons.1 h with rfl | h
      · exact .inl (Std.OrientedCmp.eq_symm he)
      · exact .inr (List.mem_cons_of_mem _ h)
    · rcases List.mem_cons.1 h with rfl | h
      · exact .inr List.mem_cons_self
      · exact (ih h).imp_right (List.mem_cons_of_mem _)

theorem insertEntry_ascending (k : κ) (a : α) {l : List (κ × α)}
    (h : l.Pairwise (fun a b => compare a.1 b.1 = .lt)) :
    (insertEntry k a l).Pairwise (fun a b => compare a.1 b.1 = .lt) := by
  induction l with
  | nil => simp [insertEntry]
  | cons e rest ih =>
    have hr := List.pairwise_cons.1 h
    rw [insertEntry]
    split
    · rename_i hk
      refine List.pairwise_cons.2 ⟨fun b hb => ?_, h⟩
      rcases List.mem_cons.1 hb with rfl | hb
      · exact hk
      · exact Std.TransCmp.lt_trans hk (hr.1 b hb)
    · exact List.pairwise_cons.2 ⟨fun b hb => hr.1 b hb, hr.2⟩
    · rename_i hk
      refine List.pairwise_cons.2 ⟨fun b hb => ?_, ih hr.2⟩
      rcases mem_insertEntry hb with hb | hb
      · exact Std.TransCmp.lt_of_lt_of_eq (Std.OrientedCmp.gt_iff_lt.1 hk)
          (Std.OrientedCmp.eq_symm hb)
      · exact hr.1 b hb

def insert (k : κ) (a : α) (m : SortedMap κ α) : SortedMap κ α :=
  ⟨insertEntry k a m.entries, insertEntry_ascending k a m.ascending⟩

/-- Of two pairs with one key the later wins. -/
def ofList (l : List (κ × α)) : SortedMap κ α :=
  l.foldl (fun m e => m.insert e.1 e.2) empty

end Ordered

@[simp] theorem toList_empty : (empty : SortedMap κ α).toList = [] := rfl

@[simp] theorem size_empty : (empty : SortedMap κ α).size = 0 := rfl

end SortedMap

end MapLoader
