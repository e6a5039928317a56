import MapLoader.Proofs.Database.Calls
import MapLoader.Proofs.Database.Migration
import MapLoader.Proofs.Files.Tree
import MapLoader.Store.DatabaseFile

/-! A database file in use. As long as the file holds a database, each connection works on that
database, and a commit leaves its own there. Making a file ready brings the six tables to the
database in it, and a file that was made afresh holds nothing else. -/

namespace MapLoader

namespace DatabaseFile

structure Holds (s : DatabaseFile) (l : Location) (d : Database) : Prop where
  shared : isPrivate s.path = false
  location : s.files.lexicalLocation s.path = l
  found : s.files.lookup l = some (.file (.database d))

theorem read_of_lookup {f : FileTree} {l : Location} {content : FileContent}
    (h : f.lookup l = some (.file content)) {d : Database} (hd : content.database? = some d) :
    read f l = .ok d := by
  simp [read, h, hd]

theorem lookup_writeBack {l : Location} (hl : l ≠ []) (f : FileTree) (d : Database) :
    (writeBack f l d).lookup l = some (.file (.database d)) := by
  rw [writeBack, FileTree.lookup_put hl, if_pos rfl]

namespace Holds

variable {s : DatabaseFile} {l : Location} {d : Database} {c : Connection}

theorem ne_nil (h : s.Holds l d) : l ≠ [] := by
  rintro rfl
  cases h.found

theorem read (h : s.Holds l d) : DatabaseFile.read s.files l = .ok d :=
  read_of_lookup h.found rfl

theorem locate (h : s.Holds l d) :
    DatabaseFile.locate s.path s.files = (.ok (some l), s.files) := by
  simp [DatabaseFile.locate, h.shared, h.location, h.found]

theorem connect (h : s.Holds l d) : Store.connect s = (.ok ⟨some l, {}, {}⟩, s) := by
  change DatabaseFile.connect s = _
  simp [DatabaseFile.connect, h.locate, h.read]

theorem current (h : s.Holds l d) (hc : c.location = some l) : DatabaseFile.current c s = d := by
  simp [DatabaseFile.current, hc, h.read]

theorem observe {α : Type}
    {operation : Database.Connection → Database → α × Database.Connection × Database}
    (h : s.Holds l d) (hc : c.location = some l) : DatabaseFile.observe operation c s =
      ((operation c.inner d).1, { c with inner := (operation c.inner d).2.1 }, s) := by
  simp [DatabaseFile.observe, h.current hc]

theorem writeBack (h : s.Holds l d) (d' : Database) :
    Holds { s with files := DatabaseFile.writeBack s.files l d' } l d' where
  shared := h.shared
  location := (FileTree.lexicalLocation_congr rfl _).trans h.location
  found := lookup_writeBack h.ne_nil _ _

theorem commit (h : s.Holds l d) (hc : c.location = some l) : ∃ s',
    Store.commit c s = (.ok (), { c with inner := { c.inner with transaction := none } }, s') ∧
      s'.Holds l (c.inner.view d) := by
  have hcommit : Store.commit c s = DatabaseFile.commit c s := rfl
  rw [hcommit]
  unfold DatabaseFile.commit
  rw [h.current hc]
  obtain ⟨location, own, statement, rows, x⟩ := c
  obtain rfl : location = some l := hc
  cases x with
  | none => exact ⟨s, rfl, h⟩
  | some w => exact ⟨_, rfl, h.writeBack w.current⟩

theorem createIndexes (h : s.Holds l d) : (∃ e, s.createIndexes = (.error e, s)) ∨
    ∃ d' s', s.createIndexes = (.ok (), s') ∧ d.createIndexes = (.ok (), d') ∧ s'.Holds l d' := by
  unfold DatabaseFile.createIndexes
  rw [h.locate]
  simp only [migrateAt, h.read]
  rcases hd : d.createIndexes with ⟨e | _, d'⟩
  · exact .inl ⟨_, rfl⟩
  · exact .inr ⟨d', _, rfl, rfl, h.writeBack d'⟩

end Holds

theorem isPrivate_of_namesFile {p : Path} (h : namesFile p = true) : isPrivate p = false := by
  rw [namesFile, Bool.and_eq_true, Bool.not_eq_true'] at h
  exact h.1

theorem widens_ensureParent (p : Path) (f : FileTree) : f.Widens (ensureParent p f).2 := by
  unfold ensureParent
  split
  · exact .refl f
  · split
    · exact .refl f
    · exact .makeDirectories f _ _

/-- New directories do not change the database at a location. -/
theorem read_widens {f g : FileTree} (h : f.Widens g) (l : Location) : read g l = read f l := by
  unfold read
  rcases h.lookup l with hg | ⟨hn, hd⟩
  · rw [hg]
  · rw [hn, hd]

theorem locate_cases {p : Path} {f : FileTree} {l : Location} (hp : isPrivate p = false)
    (hl : f.lexicalLocation p = l) : (∃ e, locate p f = (.error e, f)) ∨
      ∃ content g, locate p f = (.ok (some l), g) ∧ g.lookup l = some (.file content) ∧
        l ≠ [] ∧ read g l = read f l ∧ f.Keeps l g := by
  unfold locate
  rw [hp, if_neg Bool.false_ne_true, hl]
  dsimp only
  cases h : f.lookup l with
  | none =>
    dsimp only
    by_cases hdir : f.isDirectoryAt l.dropLast = true
    · rw [if_pos hdir]
      have hne : l ≠ [] := by
        rintro rfl
        cases h
      have hput : (f.put l (.file (.bytes []))).lookup l = some (.file (.bytes [])) := by
        rw [FileTree.lookup_put hne, if_pos rfl]
      refine .inr ⟨_, _, rfl, hput, hne, ?_, .put hne (by simp [h]) _⟩
      simp [read, hput, h, FileContent.database?]
    · rw [if_neg hdir]
      exact .inl ⟨_, rfl⟩
  | some e =>
    cases e with
    | directory => exact .inl ⟨_, rfl⟩
    | file content =>
      have hne : l ≠ [] := by
        rintro rfl
        cases h
      exact .inr ⟨content, f, rfl, h, hne, rfl, (FileTree.Widens.refl f).keeps l⟩

/-- Making a database file ready brings the missing tables to the database in it. If that fails
then at most the kind of its journal has changed. -/
theorem create_cases {p : Path} {files : FileTree} {l : Location} {d : Database}
    (hp : isPrivate p = false) (hl : files.lexicalLocation p = l) (hread : read files l = .ok d) :
    (∃ e g journal, create p files = (.error e, g) ∧ read g l = .ok { d with journal }) ∨
    ∃ s d', create p files = (.ok s, s.files) ∧ s.Holds l d' ∧
      Database.bootstrap { d with journal := .wal } = (.ok (), d') ∧ files.Keeps l s.files := by
  have hwide := widens_ensureParent p files
  unfold create
  rcases hparent : ensureParent p files with ⟨e | _, f⟩ <;> rw [hparent] at hwide
  · exact .inl ⟨_, f, d.journal, rfl, (read_widens hwide l).trans hread⟩
  have hloc := (FileTree.lexicalLocation_congr hwide.workingDirectory p).trans hl
  have hreadf := (read_widens hwide l).trans hread
  dsimp only
  obtain ⟨e, hlocate⟩ | ⟨content, g, hlocate, hfile, hne, hreadg, hkeeps⟩ := locate_cases hp hloc
  · rw [hlocate]
    exact .inl ⟨_, f, d.journal, rfl, hreadf⟩
  rw [hlocate]
  simp only [hreadg.trans hreadf, migrateAt, read_of_lookup (lookup_writeBack hne _ _) rfl]
  have hopened : files.Keeps l g := (hwide.keeps l).trans hkeeps
  have hput (f : FileTree) (d : Database) {content : FileContent}
      (h : f.lookup l = some (.file content)) : f.Keeps l (writeBack f l d) :=
    .put hne (by simp [h]) _
  rcases hb : Database.bootstrap { d with journal := .wal } with ⟨e | _, d'⟩
  · exact .inl ⟨_, _, .wal, rfl, read_of_lookup (lookup_writeBack hne _ _) rfl⟩
  · have hholds : Holds ⟨p, writeBack (writeBack g l { d with journal := .wal }) l d'⟩ l d' :=
      ⟨hp, (FileTree.lexicalLocation_congr hopened.workingDirectory p).trans hl,
        lookup_writeBack hne _ _⟩
    exact .inr ⟨_, d', rfl, hholds, rfl,
      (hopened.trans (hput g _ hfile)).trans (hput _ _ (lookup_writeBack hne _ _))⟩

theorem bootstrap_empty :
    Database.bootstrap { journal := .wal } = (.ok (), Database.fresh) := by
  have hok : (Database.bootstrap { journal := .wal }).1.isOk = true := by decide +kernel
  have hd : (Database.bootstrap { journal := .wal }).2 = .fresh := by decide +kernel
  generalize Database.bootstrap { journal := .wal } = x at hok hd
  obtain ⟨_ | _, d⟩ := x
  · cases hok
  · rw [← hd]

/-- A file that is made where there was nothing holds the six tables, and they are empty. -/
theorem holds_fresh {p : Path} {files : FileTree} {s : DatabaseFile}
    (hc : (create p files).1 = .ok s) (hp : isPrivate p = false)
    (hnew : files.lookup (files.lexicalLocation p) = none) :
    s.Holds (files.lexicalLocation p) .fresh := by
  have hread : read files (files.lexicalLocation p) = .ok {} := by simp [read, hnew]
  obtain ⟨e, g, -, hcreate, -⟩ | ⟨s', d', hcreate, hholds, hb, -⟩ := create_cases hp rfl hread <;>
    rw [hcreate] at hc
  · cases hc
  · obtain rfl := Except.ok.inj hc
    obtain rfl := congrArg Prod.snd (bootstrap_empty.symm.trans hb)
    exact hholds

end DatabaseFile

end MapLoader
