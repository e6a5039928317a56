import Mathlib.Data.List.Infix
import MapLoader.Proofs.Files.Tree

/-! Where the names of a path lead, and making the directories that are missing on the way. Inside
a directory that must not be left the names are followed as they are anywhere, as long as no
beginning of them has more `..` than names. -/

namespace MapLoader.FileTree

variable {f g : FileTree} {floor : Option Location} {base l m : Location}
  {names above : List String} {s name : String}

/-- The place that names lead to, with `..` taking back the name before it. -/
def follow (l : Location) (names : List String) : Location :=
  names.foldl (fun l s => if s = ".." then l.dropLast else l ++ [s]) l

theorem follow_up (l : Location) (names : List String) :
    follow l (".." :: names) = follow l.dropLast names := rfl

theorem follow_name (hs : s ≠ "..") (l : Location) (names : List String) :
    follow l (s :: names) = follow (l ++ [s]) names := by
  rw [follow, List.foldl_cons, if_neg hs, follow]

theorem follow_concat (hs : s ≠ "..") (l : Location) (names : List String) :
    follow l (names ++ [s]) = follow l names ++ [s] := by
  simp [follow, hs]

/-- Names that never lead out of the place that they start from `depth` names below. -/
def staysInside : Nat → List String → Bool
  | _, [] => true
  | depth, s :: rest =>
    if s = ".." then 0 < depth && staysInside (depth - 1) rest else staysInside (depth + 1) rest

theorem staysInside_concat (hs : s ≠ "..") (depth : Nat) (names : List String) :
    staysInside depth (names ++ [s]) = staysInside depth names := by
  induction names generalizing depth with
  | nil => simp [staysInside, hs]
  | cons t rest ih => simp [staysInside, ih]

theorem staysInside_of_append {depth : Nat} {more : List String}
    (h : staysInside depth (names ++ more) = true) : staysInside depth names = true := by
  induction names generalizing depth with
  | nil => rfl
  | cons t rest ih =>
    rw [List.cons_append] at h
    unfold staysInside at h ⊢
    split at h
    · rw [Bool.and_eq_true] at h
      rw [if_pos ‹_›, h.1, ih h.2]
      rfl
    · rw [if_neg ‹_›]
      exact ih h

/-- Following the names from a place never leaves the floor. -/
def Inside (floor : Option Location) (l : Location) (names : List String) : Prop :=
  ∀ base, floor = some base → ∃ up, l = base ++ up ∧ staysInside up.length names = true

theorem inside_base (h : staysInside 0 names = true) : Inside (some base) base names :=
  fun _ hb => ⟨[], by simpa using hb, h⟩

namespace Inside

theorem enter (h : Inside floor l (s :: names)) (hs : s ≠ "..") :
    Inside floor (l ++ [s]) names := by
  intro base hb
  obtain ⟨up, rfl, hin⟩ := h base hb
  refine ⟨up ++ [s], by simp, ?_⟩
  rw [staysInside, if_neg hs] at hin
  simpa using hin

theorem up (h : Inside floor l (".." :: names)) :
    floor ≠ some l ∧ Inside floor l.dropLast names := by
  have hup : ∀ base, floor = some base → ∃ up, l = base ++ up ∧ 0 < up.length ∧
      staysInside (up.length - 1) names = true := by
    intro base hb
    obtain ⟨up, hl, hin⟩ := h base hb
    refine ⟨up, hl, ?_⟩
    simpa [staysInside] using hin
  constructor
  · intro hb
    obtain ⟨up, hl, hpos, -⟩ := hup l hb
    have hlength := congrArg List.length hl
    rw [List.length_append] at hlength
    omega
  · intro base hb
    obtain ⟨up, rfl, hpos, hin⟩ := hup base hb
    exact ⟨up.dropLast, List.dropLast_append_of_ne_nil (List.ne_nil_of_length_pos hpos),
      by simpa using hin⟩

end Inside

/-- What holds of every place along the names, the first and the last one included. -/
def Along (P : Location → Prop) (l : Location) (names : List String) : Prop :=
  ∀ q, q <+: names → P (follow l q)

section Along

variable {P Q : Location → Prop}

theorem Along.first (h : Along P l names) : P l := h [] names.nil_prefix

theorem Along.last (h : Along P l names) : P (follow l names) := h names List.prefix_rfl

theorem Along.mono (h : Along P l names) (hPQ : ∀ k, P k → Q k) : Along Q l names :=
  fun q hq => hPQ _ (h q hq)

theorem Along.of_prefix {q : List String} (h : Along P l names) (hq : q <+: names) :
    Along P l q := fun r hr => h r (hr.trans hq)

theorem along_nil : Along P l [] ↔ P l :=
  ⟨Along.first, fun h q hq => by rwa [List.prefix_nil.1 hq]⟩

theorem along_up : Along P l (".." :: names) ↔ P l ∧ Along P l.dropLast names := by
  constructor
  · exact fun h => ⟨h.first, fun q hq => h (".." :: q) (List.cons_prefix_cons.2 ⟨rfl, hq⟩)⟩
  · rintro ⟨hl, h⟩ q hq
    obtain rfl | ⟨r, rfl, hr⟩ := List.prefix_cons_iff.1 hq
    · exact hl
    · exact h r hr

theorem along_name (hs : s ≠ "..") :
    Along P l (s :: names) ↔ P l ∧ Along P (l ++ [s]) names := by
  constructor
  · refine fun h => ⟨h.first, fun q hq => ?_⟩
    have hq := h (s :: q) (List.cons_prefix_cons.2 ⟨rfl, hq⟩)
    rwa [follow_name hs] at hq
  · rintro ⟨hl, h⟩ q hq
    obtain rfl | ⟨r, rfl, hr⟩ := List.prefix_cons_iff.1 hq
    · exact hl
    · rw [follow_name hs]
      exact h r hr

theorem along_concat :
    Along P l (names ++ [s]) ↔ Along P l names ∧ P (follow l (names ++ [s])) := by
  constructor
  · exact fun h => ⟨h.of_prefix (List.prefix_append _ _), h.last⟩
  · rintro ⟨h, hlast⟩ q hq
    obtain rfl | hq := List.prefix_concat_iff.1 hq
    · exact hlast
    · exact h q hq

end Along

def IsDirectory (f : FileTree) (l : Location) : Prop := f.lookup l = some .directory

/-- There is no file at a place. A directory may be there, or nothing. -/
def NoFile (f : FileTree) (l : Location) : Prop := ∀ content, f.lookup l ≠ some (.file content)

theorem isDirectoryAt_iff : f.isDirectoryAt l = true ↔ f.IsDirectory l := by
  simp [isDirectoryAt, IsDirectory]

theorem IsDirectory.noFile (h : f.IsDirectory l) : f.NoFile l := by
  intro content hc
  rw [h] at hc
  cases hc

theorem NoFile.isDirectory (h : f.NoFile l) (hs : (f.lookup l).isSome = true) :
    f.IsDirectory l := by
  obtain ⟨e, he⟩ := Option.isSome_iff_exists.1 hs
  cases e with
  | directory => exact he
  | file content => exact absurd he (h content)

theorem Widens.isDirectory (h : f.Widens g) (hl : f.IsDirectory l) : g.IsDirectory l := by
  rcases h.lookup l with hg | ⟨-, hd⟩
  · exact hg.trans hl
  · exact hd

theorem Widens.noFile (h : f.Widens g) (hl : f.NoFile l) : g.NoFile l := by
  intro content hc
  rcases h.lookup l with hg | ⟨-, hd⟩
  · exact hl content (hg.symm.trans hc)
  · cases hd.symm.trans hc

namespace WellFormed

theorem dropLast (hf : f.WellFormed) (hl : f.IsDirectory l) : f.IsDirectory l.dropLast :=
  isDirectoryAt_iff.1 (hf.1 l (by rw [hl]; rfl))

theorem start (hf : f.WellFormed) (p : Path) : f.IsDirectory (f.startOf p) := by
  unfold startOf
  split
  · rfl
  · exact isDirectoryAt_iff.1 hf.2

theorem put_directory (hf : f.WellFormed) (hl : f.IsDirectory l) (name : String) :
    (f.put (l ++ [name]) .directory).WellFormed := by
  have hput := lookup_put (l := l ++ [name]) (by simp) f .directory
  have hkept : ∀ k, f.IsDirectory k → (f.put (l ++ [name]) .directory).IsDirectory k := by
    intro k hk
    unfold IsDirectory
    rw [hput]
    split
    · rfl
    · exact hk
  refine ⟨fun k hk => isDirectoryAt_iff.2 ?_, isDirectoryAt_iff.2 (hkept _ ?_)⟩
  · rw [hput] at hk
    split at hk
    · rename_i h
      rw [h, List.dropLast_concat]
      exact hkept l hl
    · exact hkept _ (isDirectoryAt_iff.1 (hf.1 k hk))
  · exact isDirectoryAt_iff.1 hf.2

end WellFormed

/-- Neither empty nor a dot, as the names of a path are. -/
def Named (names : List String) : Prop := ∀ s ∈ names, s ≠ "" ∧ s ≠ "."

theorem named_names (p : Path) : Named p.names := by
  intro s hs
  simpa [Path.names] using (List.mem_filter.1 hs).2

theorem Named.skip (h : Named (s :: names)) : ¬ (s = "" ∨ s = ".") := by
  simpa using h s List.mem_cons_self

theorem Named.tail (h : Named (s :: names)) : Named names :=
  fun t ht => h t (List.mem_cons_of_mem _ ht)

theorem Named.of_prefix (h : Named names) (hq : above <+: names) : Named above :=
  fun s hs => h s (hq.subset hs)

section Walk

theorem walk_up (hl : f.IsDirectory l) (hfloor : floor ≠ some l) (rest : List String) :
    f.walk floor l (".." :: rest) = f.walk floor l.dropLast rest := by
  rw [walk, hl]
  simp [hfloor]

theorem walk_name (hl : f.IsDirectory l) (hskip : ¬ (s = "" ∨ s = ".")) (hs : s ≠ "..")
    (rest : List String) : f.walk floor l (s :: rest) =
      if (f.lookup (l ++ [s])).isSome then f.walk floor (l ++ [s]) rest else .error .notFound := by
  rw [walk, hl]
  simp only [if_neg hskip, if_neg hs]

/-- With no file on the way, names lead to their place unless a directory is missing. -/
theorem walk_cases (hf : f.WellFormed) (hn : Named names) (hin : Inside floor l names)
    (hl : f.IsDirectory l) (hclear : Along f.NoFile l names) :
    f.walk floor l names = .ok (follow l names) ∧ Along f.IsDirectory l names ∨
      f.walk floor l names = .error .notFound ∧ ¬ Along f.IsDirectory l names := by
  induction names generalizing l with
  | nil => exact .inl ⟨rfl, along_nil.2 hl⟩
  | cons s rest ih =>
    by_cases hs : s = ".."
    · subst hs
      obtain ⟨hfloor, hin⟩ := hin.up
      rw [walk_up hl hfloor, follow_up, along_up, and_iff_right hl]
      exact ih hn.tail hin (hf.dropLast hl) (along_up.1 hclear).2
    · rw [walk_name hl hn.skip hs, follow_name hs, along_name hs, and_iff_right hl]
      have hclear := ((along_name hs).1 hclear).2
      by_cases hsome : (f.lookup (l ++ [s])).isSome = true
      · rw [if_pos hsome]
        exact ih hn.tail (hin.enter hs) (hclear.first.isDirectory hsome) hclear
      · rw [if_neg hsome]
        refine .inr ⟨rfl, fun h => hsome ?_⟩
        rw [h.first]
        rfl

theorem walk_follow (hf : f.WellFormed) (hn : Named names) (hin : Inside floor l names)
    (h : Along f.IsDirectory l names) : f.walk floor l names = .ok (follow l names) := by
  obtain ⟨hw, -⟩ | ⟨-, hno⟩ := walk_cases hf hn hin h.first (h.mono fun _ => IsDirectory.noFile)
  · exact hw
  · exact absurd h hno

/-- A walk that comes to its end has not left its floor. -/
theorem staysInside_of_walk (up : List String) (hn : Named names)
    (hw : f.walk (some base) (base ++ up) names = .ok m) : staysInside up.length names = true := by
  induction names generalizing up with
  | nil => rfl
  | cons s rest ih =>
    unfold walk at hw
    split at hw
    · cases hw
    · cases hw
    rw [if_neg hn.skip] at hw
    unfold staysInside
    split at hw
    · rename_i hs
      split at hw
      · cases hw
      · rename_i hfloor
        have hup : up ≠ [] := by
          rintro rfl
          exact hfloor (by simp)
        rw [List.dropLast_append_of_ne_nil hup] at hw
        rw [if_pos hs, Bool.and_eq_true, decide_eq_true_eq, ← List.length_dropLast]
        exact ⟨List.length_pos_of_ne_nil hup, ih _ hn.tail hw⟩
    · rename_i hs
      split at hw
      · rw [List.append_assoc] at hw
        rw [if_neg hs]
        simpa using ih (up ++ [s]) hn.tail hw
      · cases hw

/-- A walk over directories is stopped where it would leave its floor. -/
theorem walk_escapes (up : List String) (hn : Named names)
    (h : Along f.IsDirectory (base ++ up) names) (hout : staysInside up.length names = false) :
    f.walk (some base) (base ++ up) names = .error .escapes := by
  induction names generalizing up with
  | nil => cases hout
  | cons s rest ih =>
    by_cases hs : s = ".."
    · subst hs
      obtain ⟨hl, h⟩ := along_up.1 h
      rcases List.eq_nil_or_concat up with rfl | ⟨up, t, rfl⟩
      · rw [walk, hl]
        simp
      · rw [List.concat_eq_append] at hl h hout ⊢
        rw [walk_up hl (by simp)]
        rw [← List.append_assoc, List.dropLast_concat] at h ⊢
        exact ih up hn.tail h (by simpa [staysInside] using hout)
    · obtain ⟨hl, h⟩ := (along_name hs).1 h
      rw [walk_name hl hn.skip hs, if_pos (by rw [h.first]; rfl), List.append_assoc]
      rw [List.append_assoc] at h
      rw [staysInside, if_neg hs] at hout
      exact ih _ hn.tail h (by simpa using hout)

end Walk

/-- A path leads to a directory. An empty path leads to the one where it starts. -/
def LeadsToDirectory (f : FileTree) (p : Path) : Prop :=
  ∃ l, f.walk none (f.startOf p) p.parts = .ok l ∧ f.isDirectoryAt l = true

/-- A part that names nothing is passed over. -/
theorem walk_parts_iff (hf : f.WellFormed) {parts : List String} (hl : f.IsDirectory l) :
    (∃ m, f.walk none l parts = .ok m ∧ f.isDirectoryAt m = true) ↔
      Along f.IsDirectory l (parts.filter fun s => s != "" && s != ".") := by
  simp only [isDirectoryAt_iff]
  induction parts generalizing l with
  | nil =>
    rw [List.filter_nil, along_nil]
    exact ⟨fun _ => hl, fun _ => ⟨l, rfl, hl⟩⟩
  | cons s rest ih =>
    by_cases hskip : s = "" ∨ s = "."
    · have hdrop : (s != "" && s != ".") = false := by
        rcases hskip with rfl | rfl <;> rfl
      rw [List.filter_cons_of_neg (by simp [hdrop]), walk, hl]
      simp only [if_pos hskip]
      exact ih hl
    have hkeep : (s != "" && s != ".") = true := by simpa using hskip
    rw [List.filter_cons_of_pos (by exact hkeep)]
    by_cases hs : s = ".."
    · subst hs
      rw [walk_up hl (by simp), along_up, and_iff_right hl]
      exact ih (hf.dropLast hl)
    rw [walk_name hl hskip hs, along_name hs, and_iff_right hl]
    cases he : f.lookup (l ++ [s]) with
    | none =>
      simp only [Option.isSome_none, Bool.false_eq_true, if_false]
      refine ⟨fun ⟨_, h, _⟩ => (nomatch h), fun h => ?_⟩
      cases he.symm.trans h.first
    | some e =>
      rw [Option.isSome_some, if_pos rfl]
      cases e with
      | directory => exact ih he
      -- a file ends the walk, and is no directory where it is the end
      | file content =>
        constructor
        · rintro ⟨m, hm, hd⟩
          cases rest with
          | nil =>
            obtain rfl := Except.ok.inj hm
            cases he.symm.trans hd
          | cons t rest =>
            rw [walk, he] at hm
            cases hm
        · intro h
          cases he.symm.trans h.first

theorem leadsToDirectory_iff (hf : f.WellFormed) (p : Path) :
    f.LeadsToDirectory p ↔ Along f.IsDirectory (f.startOf p) p.names :=
  walk_parts_iff hf (hf.start p)

theorem Keeps.leadsToDirectory {p : Path} (hk : f.Keeps l g) (h : f.LeadsToDirectory p) :
    g.LeadsToDirectory p := by
  obtain ⟨m, hm, hd⟩ := h
  have hstart : g.startOf p = f.startOf p := by simp [startOf, hk.workingDirectory]
  exact ⟨m, hstart ▸ hk.walk hm, isDirectoryAt_iff.2 (hk.directory (isDirectoryAt_iff.1 hd))⟩

section MakeDirectories

theorem makeDirectory_up (hw : f.walk (some base) base (above ++ [".."]) = .ok m) :
    f.makeDirectory base above ".." = .error .exists := by
  rw [makeDirectory, if_pos rfl, hw]

/-- The last of the names, when those before it lead to a directory: a directory is there, or it
is made. -/
theorem makeDirectory_cases (hf : f.WellFormed) (hn : Named (above ++ [name]))
    (hin : staysInside 0 (above ++ [name]) = true) (h : Along f.IsDirectory base above)
    (hfile : f.NoFile (follow base (above ++ [name]))) :
    (f.makeDirectory base above name = .error .exists ∧
      Along f.IsDirectory base (above ++ [name])) ∨
    ∃ g, f.makeDirectory base above name = .ok g ∧ g.WellFormed ∧
      Along g.IsDirectory base (above ++ [name]) ∧
        ¬ Along f.IsDirectory base (above ++ [name]) := by
  have hwalk := walk_follow hf (hn.of_prefix (List.prefix_append _ _))
    (inside_base (staysInside_of_append hin)) h
  by_cases hup : name = ".."
  · subst hup
    have hlast : f.IsDirectory (follow base (above ++ [".."])) := by
      rw [follow, List.foldl_append]
      exact hf.dropLast h.last
    have hall := along_concat.2 ⟨h, hlast⟩
    exact .inl ⟨makeDirectory_up (walk_follow hf hn (inside_base hin) hall), hall⟩
  rw [makeDirectory, if_neg hup, hwalk]
  simp only [isDirectoryAt_iff.2 h.last, Bool.not_true, Bool.false_eq_true, if_false]
  rw [follow_concat hup] at hfile
  rw [along_concat, follow_concat hup, and_iff_right h]
  by_cases hsome : (f.lookup (follow base above ++ [name])).isSome = true
  · rw [if_pos hsome]
    exact .inl ⟨rfl, hfile.isDirectory hsome⟩
  · rw [if_neg hsome]
    have hvacant : ¬ f.IsDirectory (follow base above ++ [name]) := fun hd => by
      rw [hd] at hsome
      exact hsome rfl
    refine .inr ⟨_, rfl, hf.put_directory h.last name, ?_, hvacant⟩
    have hput := lookup_put (l := follow base above ++ [name]) (by simp) f .directory
    refine along_concat.2 ⟨h.mono fun k hk => ?_, ?_⟩
    · unfold IsDirectory
      rw [hput]
      split
      · rfl
      · exact hk
    · unfold IsDirectory
      rw [follow_concat hup, hput, if_pos rfl]

theorem makeDirectory_missing (hf : f.WellFormed) (hn : Named (above ++ [name]))
    (hin : staysInside 0 (above ++ [name]) = true) (hb : f.IsDirectory base)
    (hclear : Along f.NoFile base (above ++ [name])) (h : ¬ Along f.IsDirectory base above) :
    f.makeDirectory base above name = .error .notFound := by
  unfold makeDirectory
  by_cases hup : name = ".."
  · rw [if_pos hup]
    obtain ⟨-, hall⟩ | ⟨hw, -⟩ := walk_cases hf hn (inside_base hin) hb hclear
    · exact absurd (along_concat.1 hall).1 h
    · rw [hw]
  · rw [if_neg hup]
    have hq : above <+: above ++ [name] := List.prefix_append _ _
    obtain ⟨-, hall⟩ | ⟨hw, -⟩ := walk_cases hf (hn.of_prefix hq)
      (inside_base (staysInside_of_append hin)) hb (hclear.of_prefix hq)
    · exact absurd hall h
    · rw [hw]

theorem reachesDirectory_of_along (hf : f.WellFormed) (hn : Named names)
    (hin : staysInside 0 names = true) (h : Along f.IsDirectory base names) :
    f.reachesDirectory base names = true := by
  rw [reachesDirectory, walk_follow hf hn (inside_base hin) h]
  exact isDirectoryAt_iff.2 h.last

/-- Without a file on the way the directory is there afterwards. If it was there before, the tree
is as it was. -/
theorem makeDirectories_along {rev : List String} (hf : f.WellFormed) (hn : Named rev.reverse)
    (hin : staysInside 0 rev.reverse = true) (hb : f.IsDirectory base)
    (hclear : Along f.NoFile base rev.reverse) :
    ∃ g, f.makeDirectories base rev = (.ok (), g) ∧ g.WellFormed ∧
      Along g.IsDirectory base rev.reverse ∧
      (Along f.IsDirectory base rev.reverse → g = f) := by
  induction rev with
  | nil => exact ⟨f, rfl, hf, along_nil.2 hb, fun _ => rfl⟩
  | cons name above ih =>
    rw [List.reverse_cons] at hn hin hclear ⊢
    have hq : above.reverse <+: above.reverse ++ [name] := List.prefix_append _ _
    unfold makeDirectories
    by_cases h : Along f.IsDirectory base above.reverse
    · obtain ⟨hmake, hall⟩ | ⟨g, hmake, hg, hall, hnot⟩ :=
        makeDirectory_cases hf hn hin h hclear.last
      · rw [hmake, List.reverse_cons]
        simp only [reachesDirectory_of_along hf hn hin hall, if_true]
        exact ⟨f, rfl, hf, hall, fun _ => rfl⟩
      · rw [hmake]
        exact ⟨g, rfl, hg, hall, fun h => absurd h hnot⟩
    · have hnot : ¬ Along f.IsDirectory base (above.reverse ++ [name]) :=
        fun hall => h (along_concat.1 hall).1
      obtain ⟨g, hup, hg, hgabove, -⟩ := ih (hn.of_prefix hq) (staysInside_of_append hin)
        (hclear.of_prefix hq)
      have hwide : f.Widens g := by simpa [hup] using Widens.makeDirectories f base above
      rw [makeDirectory_missing hf hn hin hb hclear h, hup]
      obtain ⟨hmake, hall⟩ | ⟨k, hmake, hk, hall, -⟩ :=
        makeDirectory_cases hg hn hin hgabove (hwide.noFile hclear.last)
      · simp only [hmake, List.reverse_cons, reachesDirectory_of_along hg hn hin hall, if_true]
        exact ⟨g, rfl, hg, hall, fun h => absurd h hnot⟩
      · simp only [hmake]
        exact ⟨k, rfl, hk, hall, fun h => absurd h hnot⟩

theorem staysInside_of_makeDirectory (hn : Named above)
    (h : f.makeDirectory base above name = .ok g) : staysInside 0 (above ++ [name]) = true := by
  unfold makeDirectory at h
  split at h
  · split at h <;> cases h
  · rename_i hup
    split at h
    · cases h
    · rename_i hw
      rw [staysInside_concat hup]
      exact staysInside_of_walk [] hn (by simpa using hw)

theorem staysInside_of_reachesDirectory (hn : Named names)
    (h : f.reachesDirectory base names = true) : staysInside 0 names = true := by
  unfold reachesDirectory at h
  split at h
  · cases h
  · rename_i hw
    exact staysInside_of_walk [] hn (by simpa using hw)

/-- Directories are made only where the names stay inside. -/
theorem staysInside_of_makeDirectories {rev : List String} (hn : Named rev.reverse)
    (h : f.makeDirectories base rev = (.ok (), g)) : staysInside 0 rev.reverse = true := by
  cases rev with
  | nil => rfl
  | cons name above =>
    have habove : Named above.reverse :=
      hn.of_prefix (by rw [List.reverse_cons]; exact List.prefix_append _ _)
    unfold makeDirectories at h
    split at h
    · rw [List.reverse_cons]
      exact staysInside_of_makeDirectory habove ‹_›
    · split at h
      · cases h
      · split at h
        · rw [List.reverse_cons]
          exact staysInside_of_makeDirectory habove ‹_›
        · split at h
          · exact staysInside_of_reachesDirectory hn ‹_›
          · cases h
    · split at h
      · exact staysInside_of_reachesDirectory hn ‹_›
      · cases h

/-- Names that lead to a directory, but on a way that leaves the base, are refused. -/
theorem makeDirectories_escapes {rev : List String} (hn : Named rev.reverse)
    (h : Along f.IsDirectory base rev.reverse) (hout : staysInside 0 rev.reverse = false) :
    f.makeDirectories base rev = (.error .escapes, f) := by
  have hescape {names : List String} (hq : names <+: rev.reverse)
      (hout : staysInside 0 names = false) : f.walk (some base) base names = .error .escapes := by
    simpa using walk_escapes [] (hn.of_prefix hq) (by simpa using h.of_prefix hq) hout
  cases rev with
  | nil => cases hout
  | cons name above =>
    have hreach : f.reachesDirectory base (name :: above).reverse = false := by
      rw [reachesDirectory, hescape List.prefix_rfl hout]
    have hmake : f.makeDirectory base above.reverse name = .error .escapes := by
      rw [List.reverse_cons] at hout hescape
      unfold makeDirectory
      by_cases hup : name = ".."
      · subst hup
        rw [if_pos rfl, hescape List.prefix_rfl hout]
      · rw [staysInside_concat hup] at hout
        rw [if_neg hup, hescape (List.prefix_append _ _) hout]
    unfold makeDirectories
    rw [hmake]
    simp only [hreach, Bool.false_eq_true, if_false]

end MakeDirectories

end MapLoader.FileTree
