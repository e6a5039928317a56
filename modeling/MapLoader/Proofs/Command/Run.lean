import MapLoader.Command.Run
import MapLoader.Proofs.Load.Append
import MapLoader.Proofs.Load.Interruption

/-! What a run leaves in a database that held rows before. The database is made ready, the extract
is loaded, the indexes are made, and an error of one stage cuts off the later ones; so a run that
ends well has read the whole extract, and has added all of it. -/

namespace MapLoader

namespace LoadSettings

def loadUnder (faults : List Fault) (s : LoadSettings) (database : DatabaseFile) :
    LoadRun (Faulty DatabaseFile) (Faulty.Connection DatabaseFile.Connection) :=
  loadExtract s.options { faults, inner := database } (.ofText s.extract) database.files

/-- A run during which calls to the database fail while the extract is loaded. -/
def runUnder (faults : List Fault) (s : LoadSettings) (files : FileTree) : CommandRun :=
  match DatabaseFile.create (.ofText s.database) files with
  | (.error e, files) => { outcome := .error (.prepareDatabase s.database e), files }
  | (.ok database, _) =>
    let loaded := s.loadUnder faults database
    s.conclude loaded.outcome loaded.session.store.inner loaded.session.log loaded.readerLog

variable {s : LoadSettings} {files : FileTree}

theorem runUnder_nil (s : LoadSettings) (files : FileTree) : s.runUnder [] files = s.run files := by
  unfold runUnder run
  rcases DatabaseFile.create (.ofText s.database) files with ⟨e | database, g⟩
  · rfl
  · obtain ⟨ho, hlog, hreader, hstore⟩ :=
      loadExtract_bare s.options database (.ofText s.extract) database.files
    dsimp only [loadUnder]
    rw [ho, hlog, hreader, hstore]

/-- How a run can end once the load is over, and the files that it leaves. -/
inductive Concluded (s : LoadSettings) (outcome : Except LoadError Report)
    (database : DatabaseFile) : Except CommandError Report → FileTree → Prop
  | failed {e : LoadError} : outcome = .error e →
    Concluded s outcome database (.error (.load s.extract e)) database.files
  | incomplete {report : Report} : outcome = .ok report → report.isComplete = false →
    Concluded s outcome database (.error (.incompleteLoad s.extract report.failures))
      database.files
  | unindexed {report : Report} : outcome = .ok report → report.isComplete = true →
    s.skipIndexes = true → Concluded s outcome database (.ok report) database.files
  | indexed {report : Report} {database' : DatabaseFile} : outcome = .ok report →
    report.isComplete = true → database.createIndexes = (.ok (), database') →
    Concluded s outcome database (.ok report) database'.files
  | refused {report : Report} {database' : DatabaseFile} {e : DatabaseFile.Error} :
    outcome = .ok report → report.isComplete = true →
    database.createIndexes = (.error e, database') →
    Concluded s outcome database (.error (.createIndexes s.database e)) database'.files

theorem concluded_finish {report : Report} (hc : report.isComplete = true)
    (s : LoadSettings) (database : DatabaseFile) (log : Array Notice) (readerLog : List Notice) :
    Concluded s (.ok report) database (s.finish report database log readerLog).outcome
      (s.finish report database log readerLog).files := by
  unfold finish
  by_cases hs : s.skipIndexes = true
  · rw [if_pos hs]
    exact .unindexed rfl hc hs
  · rw [if_neg hs]
    rcases hi : database.createIndexes with ⟨e | _, database'⟩
    · exact .refused rfl hc hi
    · exact .indexed rfl hc hi

theorem concluded (s : LoadSettings) (outcome : Except LoadError Report) (database : DatabaseFile)
    (log : Array Notice) (readerLog : List Notice) :
    Concluded s outcome database (s.conclude outcome database log readerLog).outcome
      (s.conclude outcome database log readerLog).files := by
  cases outcome with
  | error e => exact .failed rfl
  | ok report =>
    unfold conclude
    dsimp only
    by_cases hc : report.isComplete = true
    · rw [if_pos hc]
      exact concluded_finish hc s database log readerLog
    · rw [if_neg hc]
      exact .incomplete rfl (by simpa using hc)

end LoadSettings

namespace Database

/-- A load has left the indexes as they were, and in the tables the rows that they held and more
rows after them. -/
structure Appended (d : Database) (rows : Table → List Row) (d' : Database) : Prop where
  loadable : d.Loadable
  ready : d'.Ready
  retains : d.Retains d'
  rows? (t : Table) :
    d'.rows? t.name = some (d.held t ++ (rows t).map (List.map Value.cell)).toArray
  indexes : d'.indexes = d.indexes

variable {d d₁ d₂ d₃ : Database} {rows : Table → List Row}

theorem Mirrors.appended (h : d₁.Mirrors rows d₂) (hd : d.Loadable)
    (hf : Furnished Table.all d d₁) : d.Appended rows d₂ := by
  have hheld := hf.held_eq hd
  have hrows := h.rows_eq
  have hready : d₂.Ready := fun t => ⟨_, h.table? t⟩
  obtain ⟨-, ⟨batches, hgrown, -⟩, -⟩ := h
  exact ⟨hd, hready, hf.retains.trans hgrown.retains, fun t => hheld t ▸ hrows t,
    hgrown.indexes.trans hf.indexes⟩

namespace Appended

theorem planned (h : d.Appended rows d₂) : d₂.Planned := by
  intro e he i hi
  unfold index? at hi
  rw [h.indexes] at hi
  exact h.loadable.indexes e he i hi

theorem retains_of_tables (h : d.Appended rows d₂) (ht : d₃.tables = d₂.tables) :
    d.Retains d₃ :=
  h.retains.trans (retains_of_table? fun name _ hs => (table?_of_tables ht name).trans hs)

theorem rows?_of_tables (h : d.Appended rows d₂) (ht : d₃.tables = d₂.tables) (t : Table) :
    d₃.rows? t.name = some (d.held t ++ (rows t).map (List.map Value.cell)).toArray := by
  rw [← h.rows? t, Database.rows?, Database.rows?, table?_of_tables ht]

end Appended
end Database

/-- A database file is never a whole extract. -/
theorem ending_stream_database (d : Database) :
    (FileEntry.file (.database d)).stream.ending ≠ .complete := by
  have hbroken : (Extract.Stream.ofBytes databaseSignature).ending ≠ .complete := by
    decide +kernel
  exact hbroken

namespace LoadSettings

/-- The whole extract was read that the settings name, and these are the rows that a load of it
with the same options commits to an empty store. If the extract was there before the database was
made ready, it is the same still. -/
structure Sourced (s : LoadSettings) (files : FileTree) (rows : Table → List Row)
    (database : DatabaseFile) (entry : FileEntry) : Prop where
  found : database.files.entryAt (.ofText s.extract) = .ok entry
  before : ∀ e, files.entryAt (.ofText s.extract) = .ok e → e = entry
  ending : entry.stream.ending = .complete
  rows_eq : rows = (ingest s.options ({} : Memory) entry.stream.entities).2.store.rows

namespace Concluded

variable {s : LoadSettings} {outcome : Except LoadError Report} {database : DatabaseFile}
  {result : Except CommandError Report} {g : FileTree} {l : Location} {d d' : Database}
  {rows : Table → List Row}

theorem leaves (h : s.Concluded outcome database result g) (hd' : database.Holds l d')
    (happ : d.Appended rows d') : ∃ d'', DatabaseFile.read g l = .ok d'' ∧
      d''.tables = d'.tables ∧ (∀ e, result = .error e → d''.indexes = d'.indexes) ∧
      ∀ report, result = .ok report → s.skipIndexes = false →
        ∀ e ∈ lookupIndexes, d''.index? e.2.name = some e.2.made := by
  cases h with
  | failed ho => exact ⟨d', hd'.read, rfl, fun _ _ => rfl, fun _ ho => nomatch ho⟩
  | incomplete ho hc => exact ⟨d', hd'.read, rfl, fun _ _ => rfl, fun _ ho => nomatch ho⟩
  | unindexed ho hc hs =>
    exact ⟨d', hd'.read, rfl, fun _ ho => (nomatch ho),
      fun _ _ hn => absurd (hn.symm.trans hs) Bool.false_ne_true⟩
  | indexed ho hc hi =>
    obtain ⟨e, he⟩ | ⟨d'', database', he, hmade, hd''⟩ := hd'.createIndexes
    · cases he.symm.trans hi
    · obtain rfl := congrArg Prod.snd (he.symm.trans hi)
      have hindexed := Database.createIndexes_indexed happ.ready happ.planned hmade
      exact ⟨d'', hd''.read, hindexed.tables, fun _ ho => (nomatch ho), fun _ _ _ => hindexed.made⟩
  | refused ho hc hi =>
    obtain ⟨e, he⟩ | ⟨d'', database', he, -, -⟩ := hd'.createIndexes
    · obtain rfl := congrArg Prod.snd (he.symm.trans hi)
      exact ⟨d', hd'.read, rfl, fun _ _ => rfl, fun _ ho => nomatch ho⟩
    · cases he.symm.trans hi

theorem of_ok {report : Report} (h : s.Concluded outcome database (.ok report) g) :
    outcome = .ok report ∧ report.isComplete = true := by
  cases h with
  | unindexed ho hc _ => exact ⟨ho, hc⟩
  | indexed ho hc _ => exact ⟨ho, hc⟩

theorem of_incomplete {path : String} {n : Nat}
    (h : s.Concluded outcome database (.error (.incompleteLoad path n)) g) :
    ∃ report, outcome = .ok report ∧ n = report.failures ∧ 0 < n := by
  cases h with
  | @incomplete report ho hc =>
    have hpos : report.failures ≠ 0 := fun h => by
      rw [report.isComplete_iff.2 h] at hc
      cases hc
    exact ⟨report, ho, rfl, Nat.pos_of_ne_zero hpos⟩

end Concluded

/-- How far a run came, with the database that is in the file when the load is over. -/
inductive Staged (faults : List Fault) (s : LoadSettings) (files : FileTree) (l : Location)
    (d : Database) : CommandRun → Prop
  | unprepared {e : DatabaseFile.Error} {g : FileTree} {journal : JournalMode} :
    DatabaseFile.read g l = .ok { d with journal } →
    Staged faults s files l d { outcome := .error (.prepareDatabase s.database e), files := g }
  | loaded {database : DatabaseFile} {rows : Table → List Row} {d' : Database} {r : CommandRun} :
    DatabaseFile.create (.ofText s.database) files = (.ok database, database.files) →
    (s.loadUnder faults database).session.store.inner.Holds l d' → d.Appended rows d' →
    (∀ report, (s.loadUnder faults database).outcome = .ok report → report.isComplete = true →
      ∃ entry, s.Sourced files rows database entry) →
    s.Concluded (s.loadUnder faults database).outcome
      (s.loadUnder faults database).session.store.inner r.outcome r.files →
    Staged faults s files l d r

theorem staged {s : LoadSettings} {files : FileTree} {l : Location} {d : Database}
    (hfile : DatabaseFile.isPrivate (.ofText s.database) = false)
    (hl : files.lexicalLocation (.ofText s.database) = l)
    (hread : DatabaseFile.read files l = .ok d) (hd : d.Loadable) (faults : List Fault) :
    Staged faults s files l d (s.runUnder faults files) := by
  obtain ⟨e, g, journal, hcreate, hg⟩ | ⟨database, d₁, hcreate, hholds, hb, hkeeps⟩ :=
    DatabaseFile.create_cases hfile hl hread
  · have hrun : s.runUnder faults files =
        { outcome := .error (.prepareDatabase s.database e), files := g } := by
      simp [runUnder, hcreate]
    rw [hrun]
    exact .unprepared hg
  have hf : Database.Furnished Table.all d d₁ := (Database.bootstrap_furnishes hb).of_journal
  obtain ⟨rows, d', hd', hrows, hall⟩ := DatabaseFile.loadExtract_appends hholds (hf.ready hd)
    s.options faults (.ofText s.extract) database.files
  have hrun : s.runUnder faults files = s.conclude (s.loadUnder faults database).outcome
      (s.loadUnder faults database).session.store.inner (s.loadUnder faults database).session.log
      (s.loadUnder faults database).readerLog := by
    simp [runUnder, hcreate]
  rw [hrun]
  refine .loaded hcreate hd' (hrows.appended hd hf) (fun report ho hc => ?_) (concluded _ _ _ _ _)
  obtain ⟨entry, hentry, hending, hr⟩ := hall report ho hc
  refine ⟨entry, hentry, fun e he => ?_, hending, hr⟩
  rcases hkeeps.entryAt he with hsame | ⟨content, hcontent, hat⟩
  · exact Except.ok.inj (hsame.symm.trans hentry)
  -- were the extract the database file itself, it would not have been read to its end
  · obtain rfl := Except.ok.inj (hat.symm.trans hentry)
    obtain rfl := FileEntry.file.inj (Option.some.inj (hcontent.symm.trans hholds.found))
    exact absurd hending (ending_stream_database d₁)

/-- Whatever calls to the database fail during a load, the run only adds rows after those that the
tables held. If it ends well then the whole extract was read, each table has got just the rows that
a load of the extract with the same options commits to an empty store, and the lookup indexes are
there unless they were to be skipped. If it fails then it has made no index; and if it fails for
an incomplete load, the failures that it gives are those counted by that load. Without faults it is
a run of the program. -/
theorem run_appends {s : LoadSettings} {files : FileTree} {d : Database}
    (hfile : DatabaseFile.isPrivate (.ofText s.database) = false)
    (hread : DatabaseFile.read files (files.lexicalLocation (.ofText s.database)) = .ok d)
    (hd : d.Loadable) (faults : List Fault) :
    s.runUnder [] files = s.run files ∧
    let r := s.runUnder faults files
    ∃ d', DatabaseFile.read r.files (files.lexicalLocation (.ofText s.database)) = .ok d' ∧
      d.Retains d' ∧
      (∀ report, r.outcome = .ok report →
        (∃ database entry,
          DatabaseFile.create (.ofText s.database) files = (.ok database, database.files) ∧
          database.files.entryAt (.ofText s.extract) = .ok entry ∧
          (∀ e, files.entryAt (.ofText s.extract) = .ok e → e = entry) ∧
          entry.stream.ending = .complete ∧
          ∀ t : Table, d'.rows? t.name = some (d.held t ++
            ((ingest s.options ({} : Memory) entry.stream.entities).2.store.rows t).map
              (List.map Value.cell)).toArray) ∧
        (s.skipIndexes = false → ∀ e ∈ lookupIndexes, d'.index? e.2.name = some e.2.made)) ∧
      (∀ e, r.outcome = .error e → d'.indexes = d.indexes) ∧
      ∀ path n, r.outcome = .error (.incompleteLoad path n) → ∃ database report,
        DatabaseFile.create (.ofText s.database) files = (.ok database, database.files) ∧
        (s.loadUnder faults database).outcome = .ok report ∧
        n = report.failedFlushes.total + report.failedCommits.total ∧ 0 < n := by
  refine ⟨runUnder_nil s files, ?_⟩
  have hstaged := staged hfile rfl hread hd faults
  generalize s.runUnder faults files = r at hstaged ⊢
  cases hstaged with
  | unprepared hg =>
    exact ⟨_, hg, .refl d, fun _ ho => (nomatch ho), fun _ _ => rfl, fun _ _ ho => (nomatch ho)⟩
  | @loaded database rows d' r hcreate hd' happ hsource hconcluded =>
    obtain ⟨d'', hread, htables, herror, hindexes⟩ := hconcluded.leaves hd' happ
    refine ⟨d'', hread, happ.retains_of_tables htables, fun report ho => ⟨?_, hindexes report ho⟩,
      fun e he => (herror e he).trans happ.indexes, fun path n ho => ?_⟩
    · rw [ho] at hconcluded
      obtain ⟨hload, hc⟩ := hconcluded.of_ok
      obtain ⟨entry, hfound, hbefore, hending, rfl⟩ := hsource report hload hc
      exact ⟨database, entry, hcreate, hfound, hbefore, hending, happ.rows?_of_tables htables⟩
    · rw [ho] at hconcluded
      obtain ⟨report, hload, hn, hpos⟩ := hconcluded.of_incomplete
      exact ⟨database, report, hcreate, hload, hn, hpos⟩

def stocked : Database :=
  { (Database.fresh.insertRows .users [[.integer 7, .text "ann"]]).2 with
    indexes := [IndexPlan.made ⟨"idx_users_id", "users", ["id"], " "⟩] }

def nodeExtract : List UInt8 :=
  [0, 0, 0, 11, 10, 7, 79, 83, 77, 68, 97, 116, 97, 24, 14, 10, 12, 10, 0, 18, 8, 10, 6, 8, 2, 64,
    0, 72, 0]

def stockedFiles : FileTree where
  entries := [(["osm.db"], .file (.database stocked)),
    (["extract.osm.pbf"], .file (.bytes nodeExtract))]

def stockedSettings : LoadSettings :=
  { extract := "extract.osm.pbf", database := "osm.db", options := {}, skipIndexes := false }

def nodeFaults : List Fault := [{ point := .execute, table := some "nodes" }]

theorem stocked_loadable : stocked.Loadable where
  tables t := .inl ⟨(stocked.held t).toArray, by cases t <;> decide +kernel⟩
  indexes := by
    unfold Database.Planned
    decide +kernel

theorem run_appends_stocked :
    DatabaseFile.isPrivate (.ofText stockedSettings.database) = false ∧
    DatabaseFile.read stockedFiles
      (stockedFiles.lexicalLocation (.ofText stockedSettings.database)) = .ok stocked ∧
    stocked.Loadable ∧
    (∃ d', DatabaseFile.read (stockedSettings.run stockedFiles).files
        (stockedFiles.lexicalLocation (.ofText stockedSettings.database)) = .ok d' ∧
      (stockedSettings.run stockedFiles).outcome.isOk = true ∧ stocked.Retains d' ∧
      d'.rows? "users" =
        some #[[.integer 7, .text "ann"], [.integer (-1), .text "NO_NAME_FOUND"]] ∧
      ∀ e ∈ lookupIndexes, d'.index? e.2.name = some e.2.made) ∧
    ∃ d', DatabaseFile.read (stockedSettings.runUnder nodeFaults stockedFiles).files
        (stockedFiles.lexicalLocation (.ofText stockedSettings.database)) = .ok d' ∧
      (stockedSettings.runUnder nodeFaults stockedFiles).outcome =
        .error (.incompleteLoad "extract.osm.pbf" 1) ∧
      stocked.Retains d' ∧ d'.indexes = stocked.indexes := by
  have hfile : DatabaseFile.isPrivate (.ofText stockedSettings.database) = false := by
    decide +kernel
  have hread : DatabaseFile.read stockedFiles
      (stockedFiles.lexicalLocation (.ofText stockedSettings.database)) = .ok stocked := by
    decide +kernel
  have hentry : stockedFiles.entryAt (.ofText stockedSettings.extract) =
      .ok (.file (.bytes nodeExtract)) := by decide +kernel
  refine ⟨hfile, hread, stocked_loadable, ?_, ?_⟩
  · obtain ⟨hnil, d', hd', hretains, hok, -, -⟩ := run_appends hfile hread stocked_loadable []
    rw [hnil] at hd' hok
    have hisOk : (stockedSettings.run stockedFiles).outcome.isOk = true := by decide +kernel
    refine ⟨d', hd', hisOk, hretains, ?_⟩
    cases hout : (stockedSettings.run stockedFiles).outcome with
    | error e =>
      rw [hout] at hisOk
      cases hisOk
    | ok report =>
      obtain ⟨⟨database, entry, -, -, hbefore, -, hrows⟩, hindexes⟩ := hok report hout
      obtain rfl := hbefore _ hentry
      exact ⟨(hrows .users).trans (by decide +kernel), hindexes rfl⟩
  · have hout : (stockedSettings.runUnder nodeFaults stockedFiles).outcome =
        .error (.incompleteLoad "extract.osm.pbf" 1) := by decide +kernel
    obtain ⟨-, d', hd', hretains, -, herror, -⟩ :=
      run_appends hfile hread stocked_loadable nodeFaults
    exact ⟨d', hd', hout, hretains, herror _ hout⟩

end LoadSettings
end MapLoader
