import MapLoader.SortedMap

/-! What sorted maps hold: a value is found under a key exactly when the pair is listed, and
inserting changes what is found under one key only. -/

namespace MapLoader.SortedMap

variable {κ α : Type} [Ord κ]

theorem pairwise_keys (m : SortedMap κ α) : m.keys.Pairwise fun j k => compare j k = .lt :=
  List.pairwise_map.2 m.ascending

theorem contains_eq_isSome (m : SortedMap κ α) (k : κ) : m.contains k = (m.find? k).isSome := by
  simp [contains, find?, List.isSome_find?]

theorem compare_beq_eq [Std.LawfulEqOrd κ] [DecidableEq κ] (j k : κ) :
    (compare j k == .eq) = decide (j = k) := by
  by_cases h : j = k
  · simp [h, Std.ReflCmp.compare_self]
  · simp [h]

/-- What a map holds under a key is listed with that key, and nothing else is. -/
theorem find?_eq_some_iff [Std.LawfulEqOrd κ] (m : SortedMap κ α) (k : κ) (a : α) :
    m.find? k = some a ↔ (k, a) ∈ m.toList := by
  obtain ⟨l, h⟩ := m
  unfold find? toList
  induction l with
  | nil => simp
  | cons e rest ih =>
    have hr := List.pairwise_cons.1 h
    have ih := ih hr.2
    by_cases hk : compare k e.1 = .eq
    · have he := Std.LawfulEqCmp.eq_of_compare hk
      subst he
      have hn : (e.1, a) ∉ rest := fun hm => by
        simpa [Std.ReflCmp.compare_self] using hr.1 _ hm
      simp [hn, Prod.ext_iff, eq_comm]
    · have he : k ≠ e.1 := fun h => hk (h ▸ Std.ReflCmp.compare_self)
      have hne : (k, a) ≠ e := fun h => he (h ▸ rfl)
      simpa [hk, hne] using ih

theorem contains_iff [Std.LawfulEqOrd κ] (m : SortedMap κ α) (k : κ) :
    m.contains k = true ↔ k ∈ m.keys := by
  rw [contains_eq_isSome, Option.isSome_iff_exists, keys, List.mem_map]
  constructor
  · rintro ⟨a, ha⟩
    exact ⟨(k, a), (m.find?_eq_some_iff k a).1 ha, rfl⟩
  · rintro ⟨e, he, rfl⟩
    exact ⟨e.2, (m.find?_eq_some_iff e.1 e.2).2 he⟩

theorem eq_empty {m : SortedMap κ α} (h : m.size = 0) : m = .empty := by
  obtain ⟨l, hl⟩ := m
  cases List.length_eq_zero_iff.1 h
  rfl

theorem filter_key_eq_nil [Std.ReflOrd κ] [DecidableEq κ] {k : κ} {l : List (κ × α)}
    (h : ∀ e ∈ l, compare k e.1 = .lt) : l.filter (fun e => e.1 = k) = [] := by
  refine List.filter_eq_nil_iff.2 fun e he => ?_
  have hne : e.1 ≠ k := fun hk => by simpa [hk, Std.ReflCmp.compare_self] using h e he
  simpa using hne

theorem filter_key [Std.LawfulEqOrd κ] [DecidableEq κ] (m : SortedMap κ α) (k : κ) :
    m.toList.filter (fun e => e.1 = k) = (m.find? k).toList.map fun a => (k, a) := by
  obtain ⟨l, h⟩ := m
  unfold find? toList
  simp only [compare_beq_eq]
  induction l with
  | nil => rfl
  | cons e rest ih =>
    have hr := List.pairwise_cons.1 h
    by_cases hk : k = e.1
    · subst hk
      simp [filter_key_eq_nil hr.1]
    · simpa [hk, Ne.symm hk] using ih hr.2

theorem perm_insertEntry {k : κ} (a : α) {l : List (κ × α)}
    (h : ∀ e ∈ l, compare k e.1 ≠ .eq) : (insertEntry k a l).Perm ((k, a) :: l) := by
  induction l with
  | nil => exact .refl _
  | cons e rest ih =>
    have ih := ih fun x hx => h x (List.mem_cons_of_mem e hx)
    rw [insertEntry]
    split
    · exact .refl _
    · rename_i he
      exact absurd he (h e List.mem_cons_self)
    · exact (ih.cons e).trans (.swap (k, a) e rest)

variable [Std.TransOrd κ]

theorem find?_insert [Std.LawfulEqOrd κ] [DecidableEq κ] (m : SortedMap κ α) (k j : κ) (a : α) :
    (m.insert k a).find? j = if j = k then some a else m.find? j := by
  unfold find? insert
  simp only [compare_beq_eq]
  induction m.entries with
  | nil => by_cases h : j = k <;> simp [insertEntry, h]
  | cons e rest ih =>
    rw [insertEntry]
    split
    · by_cases h : j = k <;> simp [h]
    · rename_i he
      have he := Std.LawfulEqCmp.eq_of_compare he
      by_cases h : j = k <;> simp [h, ← he]
    · rename_i he
      have hne : k ≠ e.1 := fun h => by simp [h, Std.ReflCmp.compare_self] at he
      by_cases h : j = e.1
      · have hk : j ≠ k := fun hk => hne (hk ▸ h)
        simp [h ▸ hk, h]
      · simpa [h] using ih

theorem filter_key_insert [Std.LawfulEqOrd κ] [DecidableEq κ] (m : SortedMap κ α) (k j : κ)
    (a : α) : (m.insert k a).toList.filter (fun e => e.1 = j) =
      if j = k then [(k, a)] else m.toList.filter fun e => e.1 = j := by
  rw [filter_key, filter_key, find?_insert]
  by_cases h : j = k <;> simp [h]

/-- A new key brings one pair, and the other pairs stay. -/
theorem perm_insert [Std.LawfulEqOrd κ] {m : SortedMap κ α} {k : κ} (a : α) (h : k ∉ m.keys) :
    (m.insert k a).toList.Perm ((k, a) :: m.toList) := by
  refine perm_insertEntry a fun e he hk => ?_
  have hke : k = e.1 := Std.LawfulEqCmp.eq_of_compare hk
  exact h (hke ▸ List.mem_map_of_mem he)

/-- A pair that comes under a key that is there takes the place of the pair with that key. -/
theorem perm_insert_replaced [Std.LawfulEqOrd κ] [DecidableEq κ] (m : SortedMap κ α) (k : κ)
    (a : α) : (m.toList.filter (fun e => e.1 = k) ++ (m.insert k a).toList).Perm
      ((k, a) :: m.toList) := by
  obtain ⟨l, h⟩ := m
  unfold insert toList
  dsimp only
  induction l with
  | nil => exact .refl _
  | cons e rest ih =>
    have hr := List.pairwise_cons.1 h
    rw [insertEntry]
    split
    · rename_i hk
      have hlt : ∀ x ∈ e :: rest, compare k x.1 = .lt := fun x hx => by
        rcases List.mem_cons.1 hx with rfl | hx
        · exact hk
        · exact Std.TransCmp.lt_trans hk (hr.1 x hx)
      rw [filter_key_eq_nil hlt, List.nil_append]
    · rename_i hk
      obtain rfl : k = e.1 := Std.LawfulEqCmp.eq_of_compare hk
      rw [List.filter_cons_of_pos (by simp), filter_key_eq_nil hr.1]
      exact .swap _ _ _
    · rename_i hk
      have hne : e.1 ≠ k := fun he => by simp [he, Std.ReflCmp.compare_self] at hk
      rw [List.filter_cons_of_neg (by simpa using hne)]
      exact List.perm_middle.trans (((ih hr.2).cons e).trans (.swap _ _ _))

/-- Under a key a list leaves the last value that comes with it. -/
theorem find?_ofList [Std.LawfulEqOrd κ] [DecidableEq κ] (l : List (κ × α)) (k : κ) :
    (ofList l).find? k = l.reverse.lookup k := by
  have hfold : ∀ m : SortedMap κ α, (l.foldl (fun m e => m.insert e.1 e.2) m).find? k =
      (l.reverse.lookup k).or (m.find? k) := by
    induction l with
    | nil => exact fun m => rfl
    | cons e rest ih =>
      intro m
      obtain ⟨j, a⟩ := e
      rw [List.foldl_cons, ih, find?_insert, List.reverse_cons, List.lookup_append, Option.or_assoc]
      by_cases h : k = j
      · simp [h]
      · have hb : (k == j) = false := beq_eq_false_iff_ne.2 h
        simp [List.lookup_cons, h, hb]
  rw [ofList, hfold]
  exact Option.or_none

theorem insertEntry_last {k : κ} (a : α) {l : List (κ × α)}
    (h : ∀ e ∈ l, compare e.1 k = .lt) : insertEntry k a l = l ++ [(k, a)] := by
  induction l with
  | nil => rfl
  | cons e rest ih =>
    have he := Std.OrientedCmp.gt_of_lt (h e List.mem_cons_self)
    rw [insertEntry, he, List.cons_append, ← ih fun x hx => h x (List.mem_cons_of_mem e hx)]

theorem ofList_toList (m : SortedMap κ α) : ofList m.toList = m := by
  have hfold : ∀ (l : List (κ × α)) (n : SortedMap κ α),
      (n.entries ++ l).Pairwise (fun a b => compare a.1 b.1 = .lt) →
        (l.foldl (fun m e => m.insert e.1 e.2) n).entries = n.entries ++ l := by
    intro l
    induction l with
    | nil => exact fun n _ => (List.append_nil _).symm
    | cons e rest ih =>
      intro n hn
      have hlast : (n.insert e.1 e.2).entries = n.entries ++ [e] :=
        insertEntry_last e.2 fun x hx => (List.pairwise_append.1 hn).2.2 x hx e List.mem_cons_self
      have happend : n.entries ++ e :: rest = (n.insert e.1 e.2).entries ++ rest := by
        rw [hlast, List.append_assoc]
        rfl
      rw [List.foldl_cons, happend, ih]
      rwa [← happend]
  obtain ⟨l, h⟩ := m
  have he := hfold l .empty h
  unfold ofList toList
  dsimp only
  generalize l.foldl (fun m e => m.insert e.1 e.2) empty = n at he ⊢
  obtain ⟨l', h'⟩ := n
  cases he
  rfl

end MapLoader.SortedMap
