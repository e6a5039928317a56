import MapLoader.Command.Error

/-! A run of the program: settings are put together and checked, the database is made ready, the
extract is loaded, and the lookup indexes are made. -/

namespace MapLoader

structure CommandRun where
  outcome : Except CommandError Report
  files : FileTree
  log : Array Notice := #[]
  readerLog : List Notice := []

namespace LoadSettings

/-- Makes the indexes after a load, unless they are to be skipped. -/
def finish (s : LoadSettings) (report : Report) (database : DatabaseFile) (log : Array Notice)
    (readerLog : List Notice) : CommandRun :=
  if s.skipIndexes then
    ⟨.ok report, database.files, log.push (.notIndexing s.database), readerLog⟩
  else
    let log := log.push (.indexing s.database)
    match database.createIndexes with
    | (.error e, database) =>
      ⟨.error (.createIndexes s.database e), database.files, log, readerLog⟩
    | (.ok _, database) =>
      ⟨.ok report, database.files, log.push database.indexedNotice, readerLog⟩

/-- What a run comes to once the load is over. Indexes are made only when nothing failed. -/
def conclude (s : LoadSettings) (outcome : Except LoadError Report) (database : DatabaseFile)
    (log : Array Notice) (readerLog : List Notice) : CommandRun :=
  match outcome with
  | .error e => ⟨.error (.load s.extract e), database.files, log, readerLog⟩
  | .ok report =>
    if report.isComplete then s.finish report database log readerLog
    else
      ⟨.error (.incompleteLoad s.extract report.failures), database.files, log, readerLog⟩

def run (s : LoadSettings) (files : FileTree) : CommandRun :=
  match DatabaseFile.create (.ofText s.database) files with
  | (.error e, files) => { outcome := .error (.prepareDatabase s.database e), files }
  | (.ok database, _) =>
    let loaded := loadExtract s.options database (.ofText s.extract) database.files
    s.conclude loaded.outcome loaded.session.store loaded.session.log loaded.readerLog

end LoadSettings

def resolveSettings (arguments : LoadArguments) (environment : Environment) (files : FileTree) :
    Except CommandError LoadSettings := do
  let merged ← (arguments.layered files environment).mapError .configuration
  let settings ← (LoadSettings.ofArguments merged).mapError .settings
  (settings.checkSource files).mapError .settings
  return settings

def runCommand (words : List String) (environment : Environment) (files : FileTree) :
    CommandRun :=
  match (parseCommand words).mapError .line with
  | .error e => { outcome := .error e, files }
  | .ok arguments =>
    match resolveSettings arguments environment files with
    | .error e => { outcome := .error e, files }
    | .ok settings => settings.run files

end MapLoader
