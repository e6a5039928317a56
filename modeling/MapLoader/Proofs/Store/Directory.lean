import MapLoader.Proofs.Files.Directories
import MapLoader.Proofs.Store.DatabaseFile

/-! The directory of a database file. When one is made ready, the directories that are missing
above it are made first, inside the root or inside the working directory; so a path that goes up
from there is refused even if the directory is there. -/

namespace MapLoader

namespace Path

def Slashless (p : Path) : Prop := ∀ s ∈ p.parts, '/' ∉ s.toList

theorem split_ne_nil (cs : List Char) : split cs ≠ [] := by
  cases cs with
  | nil => exact List.cons_ne_nil _ _
  | cons c cs =>
    unfold split
    split
    · exact List.cons_ne_nil _ _
    · split <;> exact List.cons_ne_nil _ _

theorem not_mem_of_mem_split {cs part : List Char} (h : part ∈ split cs) : '/' ∉ part := by
  induction cs generalizing part with
  | nil =>
    obtain rfl := List.mem_singleton.1 h
    exact List.not_mem_nil
  | cons c cs ih =>
    obtain ⟨q, qs, hs⟩ := List.exists_cons_of_ne_nil (split_ne_nil cs)
    rw [hs] at ih
    simp only [split, hs] at h
    split at h
    · rcases List.mem_cons.1 h with rfl | h
      · exact List.not_mem_nil
      · exact ih h
    · rename_i hc
      rcases List.mem_cons.1 h with rfl | h
      · exact List.not_mem_cons_of_ne_of_not_mem (Ne.symm hc) (ih List.mem_cons_self)
      · exact ih (List.mem_cons_of_mem _ h)

theorem slashless_ofText (s : String) : (ofText s).Slashless := by
  have hmap (cs : List Char) : ∀ t ∈ (split cs).map String.ofList, '/' ∉ t.toList := by
    intro t ht
    obtain ⟨part, hpart, rfl⟩ := List.mem_map.1 ht
    simpa using not_mem_of_mem_split hpart
  unfold ofText Slashless
  split <;> exact hmap _

theorem trimEnd_subset (b : Bool) (parts : List String) : trimEnd b parts ⊆ parts := by
  induction parts generalizing b with
  | nil => exact List.Subset.refl _
  | cons s rest ih =>
    unfold trimEnd
    dsimp only
    split
    · exact List.nil_subset _
    · exact List.cons_subset_cons s (ih false)

theorem Slashless.parent {p q : Path} (h : p.Slashless) (hq : p.parent? = some q) :
    q.Slashless := by
  unfold parent? at hq
  dsimp only at hq
  split at hq
  · cases hq
  · obtain rfl := Option.some.inj hq
    intro s hs
    exact h s (trimEnd_subset _ _ (List.dropLast_subset _ (trimEnd_subset _ _ hs)))

theorem mem_intercalate {s : List Char} {parts : List (List Char)} (hs : s ∈ parts)
    (sep : List Char) : s ⊆ sep.intercalate parts := by
  intro c hc
  induction parts with
  | nil => cases hs
  | cons t rest ih =>
    cases rest with
    | nil => simpa [List.intercalate, List.mem_singleton.1 hs] using hc
    | cons u rest =>
      rw [List.intercalate, List.intersperse_cons_cons, List.flatten_cons, List.flatten_cons]
      rcases List.mem_cons.1 hs with rfl | hs
      · exact List.mem_append_left _ hc
      · exact List.mem_append_right _ (List.mem_append_right _ (ih hs))

/-- The empty text and a slash alone have no names. -/
theorem Slashless.names_eq_nil {p : Path} (h : p.Slashless) (ht : p.text = "" ∨ p.text = "/") :
    p.names = [] := by
  have hempty : ∀ s ∈ p.parts, s = "" := by
    intro s hs
    have hslash : ∀ c ∈ s.toList, c = '/' := by
      intro c hc
      have hmem : c ∈ p.text.toList := by
        rw [text, String.toList_append, String.toList_intercalate]
        exact List.mem_append_right _ (mem_intercalate (List.mem_map_of_mem hs) _ hc)
      rcases ht with ht | ht
      · rw [ht] at hmem
        cases hmem
      · rw [ht] at hmem
        simpa using hmem
    refine String.toList_eq_nil_iff.1 (List.eq_nil_iff_forall_not_mem.2 fun c hc => ?_)
    obtain rfl := hslash c hc
    exact h s hs hc
  refine List.filter_eq_nil_iff.2 fun s hs => ?_
  simp [hempty s hs]

end Path

namespace FileTree

variable {f g h : FileTree} {l : Location}

/-- The same tree but for the file at `l`, which may be new or hold something else. -/
structure Writes (l : Location) (f g : FileTree) : Prop where
  workingDirectory : g.workingDirectory = f.workingDirectory
  lookup (k : Location) : g.lookup k = f.lookup k ∨
    k = l ∧ ¬ f.IsDirectory l ∧ ∃ content, g.lookup l = some (.file content)

namespace Writes

theorem refl (l : Location) (f : FileTree) : f.Writes l f := ⟨rfl, fun _ => .inl rfl⟩

theorem isDirectory_iff (h : f.Writes l g) {k : Location} :
    g.IsDirectory k ↔ f.IsDirectory k := by
  rcases h.lookup k with hk | ⟨rfl, hno, content, hc⟩
  · rw [IsDirectory, IsDirectory, hk]
  · refine ⟨fun hd => ?_, fun hd => absurd hd hno⟩
    cases hc.symm.trans hd

theorem isDirectoryAt (h : f.Writes l g) (k : Location) :
    g.isDirectoryAt k = f.isDirectoryAt k := by
  rw [Bool.eq_iff_iff, isDirectoryAt_iff, isDirectoryAt_iff]
  exact h.isDirectory_iff

theorem trans (h₁ : f.Writes l g) (h₂ : g.Writes l h) : f.Writes l h where
  workingDirectory := h₂.workingDirectory.trans h₁.workingDirectory
  lookup k := by
    rcases h₂.lookup k with hk | ⟨rfl, hno, hc⟩
    · rcases h₁.lookup k with hg | ⟨rfl, hno, content, hc⟩
      · exact .inl (hk.trans hg)
      · exact .inr ⟨rfl, hno, content, hk.trans hc⟩
    · exact .inr ⟨rfl, fun hd => hno (h₁.isDirectory_iff.2 hd), hc⟩

theorem put (hl : l ≠ []) (hno : ¬ f.IsDirectory l) (content : FileContent) :
    f.Writes l (f.put l (.file content)) where
  workingDirectory := rfl
  lookup k := by
    rw [lookup_put hl, lookup_put hl, if_pos rfl]
    by_cases hk : k = l
    · exact .inr ⟨hk, hno, content, rfl⟩
    · exact .inl (if_neg hk)

theorem keeps (h : f.Writes l g) : f.Keeps l g where
  workingDirectory := h.workingDirectory
  lookup {k e} he := by
    rcases h.lookup k with hk | ⟨rfl, hno, content, hc⟩
    · exact .inl (hk.trans he)
    · cases e with
      | directory => exact absurd he hno
      | file old => exact .inr ⟨rfl, old, content, rfl, hc⟩

end Writes

theorem wellFormed_of_entries (h : ∀ e ∈ f.entries, f.isDirectoryAt e.1.dropLast = true)
    (hw : f.isDirectoryAt f.workingDirectory = true) : f.WellFormed := by
  refine ⟨fun l hl => ?_, hw⟩
  cases l with
  | nil => rfl
  | cons name rest =>
    rw [lookup_cons, Option.isSome_map, Option.isSome_iff_exists] at hl
    obtain ⟨e, he⟩ := hl
    have hlocation : e.1 = name :: rest := by simpa using List.find?_some he
    exact hlocation ▸ h e (List.mem_of_find?_eq_some he)

end FileTree

open FileTree

/-- Followed from its start the path never leads above it. -/
def Path.staysInside (p : Path) : Bool := FileTree.staysInside 0 p.names

namespace DatabaseFile

variable {p parent : Path} {f g : FileTree} {l : Location}

/-- The root and an empty directory need not be told apart: there is nothing to make. -/
theorem ensureParent_eq (hp : p.parent? = some parent) (hs : parent.Slashless) (f : FileTree) :
    ensureParent p f =
      ((f.makeDirectories (f.startOf parent) parent.names.reverse).1.mapError
        (.createDirectory parent),
      (f.makeDirectories (f.startOf parent) parent.names.reverse).2) := by
  unfold ensureParent
  rw [hp]
  by_cases ht : parent.text = "" ∨ parent.text = "/"
  · rw [hs.names_eq_nil ht]
    simp only [if_pos ht]
    rfl
  · simp only [if_neg ht]

theorem writes_locate (p : Path) (f : FileTree) :
    f.Writes (f.lexicalLocation p) (locate p f).2 := by
  unfold locate
  split
  · exact .refl _ f
  dsimp only
  split
  · exact .refl _ f
  · exact .refl _ f
  · rename_i hnone
    split
    · refine .put ?_ ?_ _
      · intro hl
        rw [hl] at hnone
        cases hnone
      · intro hd
        cases hnone.symm.trans hd
    · exact .refl _ f

theorem writes_writeBack (hfile : f.lookup l = some (.file content)) (d : Database) :
    f.Writes l (writeBack f l d) := by
  refine .put ?_ ?_ _
  · rintro rfl
    cases hfile
  · intro hd
    cases hfile.symm.trans hd

/-- Once the directory is there only the database file is written. -/
theorem create_writes (hparent : ensureParent p f = (.ok (), g)) :
    (∀ q e, (create p f).1 ≠ .error (.createDirectory q e)) ∧
      g.Writes (g.lexicalLocation p) (create p f).2 := by
  have hlocated := writes_locate p g
  unfold create
  rw [hparent]
  dsimp only
  rcases hlocate : locate p g with ⟨e | _ | l, h⟩ <;> rw [hlocate] at hlocated
  · exact ⟨by simp, hlocated⟩
  · exact ⟨by simp, hlocated⟩
  have hprivate : isPrivate p = false := by
    by_contra hp
    rw [locate, if_pos (by simpa using hp)] at hlocate
    cases hlocate
  obtain ⟨e, hfail⟩ | ⟨content, h', hsome, hfile, hne, -, -⟩ := locate_cases hprivate rfl
  · cases hlocate.symm.trans hfail
  obtain ⟨hl, rfl⟩ := Prod.mk.inj (hlocate.symm.trans hsome)
  obtain rfl : l = g.lexicalLocation p := by simpa using hl
  dsimp only
  cases hread : read h (g.lexicalLocation p) with
  | error e => exact ⟨by simp, hlocated⟩
  | ok d =>
    have hopened := lookup_writeBack hne h { d with journal := .wal }
    have hlog := hlocated.trans (writes_writeBack hfile { d with journal := .wal })
    simp only [migrateAt, read_of_lookup hopened rfl]
    rcases Database.bootstrap { d with journal := .wal } with ⟨e | _, d'⟩
    · exact ⟨by simp [Except.map], hlog⟩
    · exact ⟨by simp [Except.map], hlog.trans (writes_writeBack hopened d')⟩

section Parent

variable (hf : f.WellFormed) (hp : p.parent? = some parent) (hs : parent.Slashless)

include hf hp hs

/-- The missing directories are made where no file is in the way. -/
theorem ensureParent_clear (hin : parent.staysInside = true)
    (hclear : Along f.NoFile (f.startOf parent) parent.names) :
    ∃ g, ensureParent p f = (.ok (), g) ∧ g.LeadsToDirectory parent ∧
      (f.LeadsToDirectory parent → g = f) := by
  have hrev := parent.names.reverse_reverse
  obtain ⟨g, hmade, hg, hall, hsame⟩ := makeDirectories_along hf
    (hrev.symm ▸ named_names parent) (hrev.symm ▸ hin) (hf.start parent) (hrev.symm ▸ hclear)
  rw [hrev] at hall hsame
  have hwide : f.Widens g := by
    simpa [hmade] using Widens.makeDirectories f (f.startOf parent) parent.names.reverse
  have hstart : g.startOf parent = f.startOf parent := by simp [startOf, hwide.workingDirectory]
  refine ⟨g, by rw [ensureParent_eq hp hs, hmade]; rfl, ?_, fun h => hsame ?_⟩
  · rw [leadsToDirectory_iff hg, hstart]
    exact hall
  · exact (leadsToDirectory_iff hf parent).1 h

/-- A path on which the names lead out is refused. -/
theorem create_outside (hout : parent.staysInside = false) :
    (∃ e, (create p f).1 = .error (.createDirectory parent e)) ∧ f.Widens (create p f).2 ∧
      (f.LeadsToDirectory parent →
        create p f = (.error (.createDirectory parent .escapes), f)) := by
  have hrev := parent.names.reverse_reverse
  have hn : Named parent.names.reverse.reverse := hrev.symm ▸ named_names parent
  have hwide := Widens.makeDirectories f (f.startOf parent) parent.names.reverse
  rcases hmade : f.makeDirectories (f.startOf parent) parent.names.reverse with ⟨e | _, g⟩ <;>
    rw [hmade] at hwide
  · have hensure := ensureParent_eq hp hs f
    rw [hmade] at hensure
    have hcreate : create p f = (.error (.createDirectory parent e), g) := by
      rw [create, hensure]
      rfl
    refine ⟨⟨e, by rw [hcreate]⟩, by rw [hcreate]; exact hwide, fun hlead => ?_⟩
    have hall := (leadsToDirectory_iff hf parent).1 hlead
    have hescape := makeDirectories_escapes hn (hrev.symm ▸ hall) (hrev.symm ▸ hout)
    obtain ⟨he, rfl⟩ := Prod.mk.inj (hmade.symm.trans hescape)
    obtain rfl := Except.error.inj he
    exact hcreate
  · have hin := staysInside_of_makeDirectories hn hmade
    rw [hrev] at hin
    cases hout.symm.trans hin

end Parent

/-- Making a database file ready provides the directory of the file. Where the path stays inside
the root or the working directory, an existing directory is accepted and nothing but the database
file changes, and a missing one is made unless a file is in the way. A path that leads out on its
way is refused, even where it leads to a directory. -/
theorem create_provides_directory {text : String} {files : FileTree} {parent : Path}
    (hf : files.WellFormed) (hp : (Path.ofText text).parent? = some parent) :
    let p := Path.ofText text
    let made := ensureParent p files
    let run := create p files
    (parent.staysInside = true → files.LeadsToDirectory parent →
      made = (.ok (), files) ∧ (∀ q e, run.1 ≠ .error (.createDirectory q e)) ∧
      ∀ k, run.2.isDirectoryAt k = files.isDirectoryAt k) ∧
    (parent.staysInside = true → Along files.NoFile (files.startOf parent) parent.names →
      made.1 = .ok () ∧ files.Widens made.2 ∧ (∀ q e, run.1 ≠ .error (.createDirectory q e)) ∧
      run.2.LeadsToDirectory parent ∧ files.Keeps (files.lexicalLocation p) run.2) ∧
    (parent.staysInside = false →
      (∃ e, run.1 = .error (.createDirectory parent e)) ∧ files.Widens run.2 ∧
      (files.LeadsToDirectory parent →
        run = (.error (.createDirectory parent .escapes), files))) := by
  have hs := (Path.slashless_ofText text).parent hp
  have hwide := widens_ensureParent (Path.ofText text) files
  refine ⟨fun hin hlead => ?_, fun hin hclear => ?_, create_outside hf hp hs⟩
  · have hall := (leadsToDirectory_iff hf parent).1 hlead
    obtain ⟨g, hmade, -, hsame⟩ :=
      ensureParent_clear hf hp hs hin (hall.mono fun _ => IsDirectory.noFile)
    obtain rfl := hsame hlead
    obtain ⟨haccepted, hwrites⟩ := create_writes hmade
    exact ⟨hmade, haccepted, hwrites.isDirectoryAt⟩
  · obtain ⟨g, hmade, hlead, -⟩ := ensureParent_clear hf hp hs hin hclear
    rw [hmade] at hwide ⊢
    obtain ⟨haccepted, hwrites⟩ := create_writes hmade
    rw [lexicalLocation_congr hwide.workingDirectory] at hwrites
    exact ⟨rfl, hwide, haccepted, hwrites.keeps.leadsToDirectory hlead,
      (hwide.keeps _).trans hwrites.keeps⟩

def workshop : FileTree where
  entries := [(["data"], .directory), (["data", "work"], .directory),
    (["data", "work", "notes.txt"], .file (.bytes []))]
  workingDirectory := ["data", "work"]

theorem workshop_wellFormed : workshop.WellFormed :=
  wellFormed_of_entries (by decide +kernel) (by decide +kernel)

/-- Two directories are made for this path, and one of them only to be left again. -/
theorem create_provides_directory_detour :
    let p := Path.ofText "old/../maps/osm.db"
    let parent : Path := ⟨false, ["old", "..", "maps"]⟩
    workshop.WellFormed ∧ p.parent? = some parent ∧ parent.staysInside = true ∧
      Along workshop.NoFile (workshop.startOf parent) parent.names ∧
      (create p workshop).2.LeadsToDirectory parent ∧
      (create p workshop).2.isDirectoryAt ["data", "work", "old"] = true := by
  intro p parent
  have hp : p.parent? = some parent := by decide +kernel
  have hin : parent.staysInside = true := by decide +kernel
  have hclear : Along workshop.NoFile ["data", "work"] ["old", "..", "maps"] := by
    rw [along_name (by decide), along_up, along_name (by decide), along_nil]
    refine ⟨?_, ?_, ?_, ?_⟩ <;> intro content h <;> cases h
  obtain ⟨-, -, -, hlead, -⟩ :=
    (create_provides_directory workshop_wellFormed hp).2.1 hin hclear
  exact ⟨workshop_wellFormed, hp, hin, hclear, hlead, by decide +kernel⟩

/-- The directory above the working directory is there, but no database is made in it. -/
theorem directory_above_is_refused :
    workshop.WellFormed ∧ (Path.ofText "../osm.db").parent? = some ⟨false, [".."]⟩ ∧
      workshop.LeadsToDirectory ⟨false, [".."]⟩ ∧
      (create (.ofText "../osm.db") workshop).1 =
        .error (.createDirectory ⟨false, [".."]⟩ .escapes) := by
  refine ⟨workshop_wellFormed, by decide +kernel, ⟨["data"], by rfl, by decide +kernel⟩, by rfl⟩

end DatabaseFile

end MapLoader
