import MapLoader.Text.Blank

/-! Trimming a text leaves what stands between the blanks at its ends, and nothing else is that. -/

namespace MapLoader.Text

/-- `t` stands between blanks in `s`, and has none at its own ends. -/
structure Trims (s t : String) : Prop where
  around : ∃ before after, s.toList = before ++ t.toList ++ after ∧
    (∀ c ∈ before, isBlank c = true) ∧ ∀ c ∈ after, isBlank c = true
  first : ∀ c, t.toList.head? = some c → isBlank c = false
  last : ∀ c, t.toList.getLast? = some c → isBlank c = false

variable {p : Char → Bool} {l : List Char}

theorem head_dropWhile {c : Char} (h : (l.dropWhile p).head? = some c) : p c = false := by
  simpa [h] using List.head?_dropWhile_not p l

theorem dropWhile_append_of_head {before : List Char} (hb : ∀ c ∈ before, p c = true)
    (hl : ∀ c, l.head? = some c → p c = false) : (before ++ l).dropWhile p = l := by
  rw [List.dropWhile_append_of_pos hb]
  cases l with
  | nil => rfl
  | cons c l => simp [hl c rfl]

theorem exists_dropWhile (p : Char → Bool) (l : List Char) :
    ∃ before, l = before ++ l.dropWhile p ∧ ∀ c ∈ before, p c = true :=
  ⟨l.takeWhile p, List.takeWhile_append_dropWhile.symm, List.all_eq_true.1 List.all_takeWhile⟩

theorem trims_trim (s : String) : Trims s (trim s) := by
  obtain ⟨before, hfront, hbefore⟩ := exists_dropWhile isBlank s.toList
  obtain ⟨after, hback, hafter⟩ :=
    exists_dropWhile isBlank (s.toList.dropWhile isBlank).reverse
  have hrest : s.toList.dropWhile isBlank = (trim s).toList ++ after.reverse := by
    rw [trim, String.toList_ofList, ← List.reverse_append, ← hback, List.reverse_reverse]
  refine ⟨⟨before, after.reverse, ?_, hbefore, by simpa using hafter⟩, fun c hc => ?_,
    fun c hc => ?_⟩
  · rw [List.append_assoc, ← hrest, ← hfront]
  · refine head_dropWhile (l := s.toList) ?_
    rw [hrest, List.head?_append, hc]
    rfl
  · rw [trim, String.toList_ofList, List.getLast?_reverse] at hc
    exact head_dropWhile hc

theorem Trims.eq_trim {s t : String} (h : Trims s t) : t = trim s := by
  obtain ⟨before, after, hs, hbefore, hafter⟩ := h.around
  rw [← String.toList_inj, trim, String.toList_ofList, hs]
  rcases ht : t.toList with _ | ⟨c, l⟩
  · have hblank : ∀ c ∈ before ++ after, isBlank c = true := by
      simpa [or_imp, forall_and] using ⟨hbefore, hafter⟩
    have hnone := dropWhile_append_of_head (l := []) hblank (by simp)
    rw [List.append_nil] at hnone ⊢
    rw [hnone]
    rfl
  · rw [← ht, List.append_assoc, dropWhile_append_of_head hbefore, List.reverse_append,
      dropWhile_append_of_head, List.reverse_reverse]
    · simpa using hafter
    · simpa using h.last
    · intro d hd
      exact h.first d (by simpa [ht] using hd)

theorem trims_iff {s t : String} : Trims s t ↔ t = trim s :=
  ⟨Trims.eq_trim, fun h => h ▸ trims_trim s⟩

end MapLoader.Text
