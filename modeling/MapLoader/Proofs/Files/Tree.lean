import MapLoader.Files.Tree

/-! What writing to a tree changes: an entry that is put is found in its place, and making
directories changes no entry that was there. So a path that led somewhere still leads there. -/

namespace MapLoader.FileTree

variable {f g h : FileTree}

theorem lookup_cons (f : FileTree) (name : String) (rest : List String) :
    f.lookup (name :: rest) =
      (f.entries.find? fun e => e.1 == name :: rest).map Prod.snd := rfl

theorem lookup_put {l : Location} (hl : l ≠ []) (f : FileTree) (e : FileEntry) (k : Location) :
    (f.put l e).lookup k = if k = l then some e else f.lookup k := by
  cases k with
  | nil => rw [if_neg (Ne.symm hl)]; rfl
  | cons name rest =>
    rw [lookup_cons, lookup_cons]
    unfold put
    rw [List.find?_cons]
    by_cases hk : name :: rest = l
    · simp [hk]
    · have hne : (l == name :: rest) = false := by simpa using Ne.symm hk
      rw [if_neg hk, hne, List.find?_filter]
      refine congrArg (fun p => (f.entries.find? p).map Prod.snd) (funext fun x => ?_)
      by_cases hx : x.1 = name :: rest
      · simp [hx, hk]
      · simp [hx]

/-- The place that a path names in the text alone depends on the working directory only. -/
theorem lexicalLocation_congr (h : g.workingDirectory = f.workingDirectory) (p : Path) :
    g.lexicalLocation p = f.lexicalLocation p := by
  unfold lexicalLocation startOf
  rw [h]

/-- The same tree but for directories that are new. -/
structure Widens (f g : FileTree) : Prop where
  workingDirectory : g.workingDirectory = f.workingDirectory
  lookup (l : Location) :
    g.lookup l = f.lookup l ∨ f.lookup l = none ∧ g.lookup l = some .directory

namespace Widens

theorem refl (f : FileTree) : f.Widens f := ⟨rfl, fun _ => .inl rfl⟩

theorem trans (h₁ : f.Widens g) (h₂ : g.Widens h) : f.Widens h where
  workingDirectory := h₂.workingDirectory.trans h₁.workingDirectory
  lookup l := by
    rcases h₂.lookup l with h | ⟨hg, hd⟩
    · exact (h₁.lookup l).imp h.trans (And.imp_right h.trans)
    · rcases h₁.lookup l with h | ⟨-, h⟩
      · exact .inr ⟨h ▸ hg, hd⟩
      · cases hg.symm.trans h

theorem makeDirectory {base : Location} {above : List String} {name : String}
    (hd : f.makeDirectory base above name = .ok g) : f.Widens g := by
  unfold FileTree.makeDirectory at hd
  split at hd
  · split at hd <;> cases hd
  · split at hd
    · cases hd
    · rename_i l _
      split at hd
      · cases hd
      · split at hd
        · cases hd
        · rename_i hvacant
          cases hd
          refine ⟨rfl, fun k => ?_⟩
          rw [lookup_put (by simp)]
          split
          · rename_i hk
            rw [Option.not_isSome_iff_eq_none, ← hk] at hvacant
            exact .inr ⟨hvacant, rfl⟩
          · exact .inl rfl

theorem makeDirectories (f : FileTree) (base : Location) (names : List String) :
    f.Widens (f.makeDirectories base names).2 := by
  induction names generalizing f with
  | nil => exact .refl f
  | cons name above ih =>
    unfold FileTree.makeDirectories
    split
    · exact makeDirectory ‹_›
    · have hup := ih f
      split <;> rename_i hmade <;> rw [hmade] at hup
      · exact hup
      · split
        · exact hup.trans (makeDirectory ‹_›)
        · split <;> exact hup
    · split <;> exact .refl f

end Widens

/-- Every entry is still there, and it is the same one unless it is the file at `l`, which may
hold something else. -/
structure Keeps (l : Location) (f g : FileTree) : Prop where
  workingDirectory : g.workingDirectory = f.workingDirectory
  lookup {k : Location} {e : FileEntry} : f.lookup k = some e → g.lookup k = some e ∨
    k = l ∧ ∃ old new, e = .file old ∧ g.lookup k = some (.file new)

theorem Widens.keeps (hw : f.Widens g) (l : Location) : f.Keeps l g where
  workingDirectory := hw.workingDirectory
  lookup {k e} he := by
    rcases hw.lookup k with hg | ⟨hn, -⟩
    · exact .inl (hg.trans he)
    · cases hn.symm.trans he

namespace Keeps

variable {l : Location}

theorem trans (h₁ : f.Keeps l g) (h₂ : g.Keeps l h) : f.Keeps l h where
  workingDirectory := h₂.workingDirectory.trans h₁.workingDirectory
  lookup he := by
    rcases h₁.lookup he with hg | ⟨hk, old, new, hold, hg⟩
    · exact h₂.lookup hg
    · rcases h₂.lookup hg with hh | ⟨-, _, last, -, hh⟩
      · exact .inr ⟨hk, old, new, hold, hh⟩
      · exact .inr ⟨hk, old, last, hold, hh⟩

theorem put (hl : l ≠ []) (hd : f.lookup l ≠ some .directory) (content : FileContent) :
    f.Keeps l (f.put l (.file content)) where
  workingDirectory := rfl
  lookup {k e} he := by
    rw [lookup_put hl]
    by_cases hk : k = l
    · subst hk
      cases e with
      | directory => exact absurd he hd
      | file old => exact .inr ⟨rfl, old, content, rfl, if_pos rfl⟩
    · rw [if_neg hk]
      exact .inl he

theorem directory (hk : f.Keeps l g) {k : Location} (hd : f.lookup k = some .directory) :
    g.lookup k = some .directory := by
  rcases hk.lookup hd with hg | ⟨-, _, _, hold, -⟩
  · exact hg
  · cases hold

theorem isSome (hk : f.Keeps l g) {k : Location} (hs : (f.lookup k).isSome = true) :
    (g.lookup k).isSome = true := by
  obtain ⟨e, he⟩ := Option.isSome_iff_exists.1 hs
  rcases hk.lookup he with hg | ⟨-, _, _, -, hg⟩ <;> rw [hg] <;> rfl

theorem walk (hk : f.Keeps l g) {floor : Option Location} {k m : Location} {parts : List String}
    (hw : f.walk floor k parts = .ok m) : g.walk floor k parts = .ok m := by
  induction parts generalizing k with
  | nil => exact hw
  | cons s rest ih =>
    unfold FileTree.walk at hw ⊢
    split at hw
    · cases hw
    · cases hw
    · rename_i hd
      rw [hk.directory hd]
      dsimp only
      split at hw
      · rename_i hs
        rw [if_pos hs]
        exact ih hw
      rename_i hs
      rw [if_neg hs]
      split at hw
      · rename_i hup
        rw [if_pos hup]
        split at hw
        · cases hw
        · rename_i hfloor
          rw [if_neg hfloor]
          exact ih hw
      rename_i hup
      rw [if_neg hup]
      split at hw
      · rename_i hs
        rw [if_pos (hk.isSome hs)]
        exact ih hw
      · cases hw

/-- A path still leads to the entry that it led to, or else to what the file at `l` holds now. -/
theorem entryAt (hk : f.Keeps l g) {p : Path} {e : FileEntry} (he : f.entryAt p = .ok e) :
    g.entryAt p = .ok e ∨ ∃ content, g.lookup l = some (.file content) ∧
      g.entryAt p = .ok (.file content) := by
  unfold FileTree.entryAt at he ⊢
  have hstart : g.startOf p = f.startOf p := by simp [startOf, hk.workingDirectory]
  cases hr : f.resolve p with
  | error x => simp [hr] at he
  | ok k =>
    have hrg : g.resolve p = .ok k := by
      unfold FileTree.resolve at hr ⊢
      split at hr
      · cases hr
      · rename_i hp
        rw [if_neg hp, hstart]
        exact hk.walk hr
    simp only [hr] at he
    simp only [hrg]
    cases hf : f.lookup k with
    | none => simp [hf] at he
    | some x =>
      simp only [hf, Except.ok.injEq] at he
      subst he
      rcases hk.lookup hf with hg | ⟨rfl, old, new, -, hg⟩
      · exact .inl (by rw [hg])
      · exact .inr ⟨new, hg, by rw [hg]⟩

end Keeps

end MapLoader.FileTree
