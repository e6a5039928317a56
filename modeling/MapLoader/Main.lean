import MapLoader.Command.Run
import MapLoader.Database.Script
import MapLoader.Duration

/-! The program. What a run may look at is read beforehand, the run itself is a function, and
what it made is written afterwards: a database as a script of statements. -/

namespace MapLoader

def variableNames : List String :=
  "HOME" :: "XDG_CONFIG_HOME" :: LoadField.all.map fun f => variablePrefix ++ f.key.toUpper

def readEnvironment : IO Environment :=
  variableNames.filterMapM fun name => do
    return (← IO.getEnv name).map fun value => (name, value)

def Location.text (l : Location) : String := "/" ++ String.intercalate "/" l

/-- The nonempty beginnings of a list, the shortest first. -/
def beginnings {α : Type} (xs : List α) : List (List α) :=
  (List.range xs.length).map fun i => xs.take (i + 1)

def FileTree.addFromDisk (f : FileTree) (l : Location) : IO FileTree := do
  if !f.isDirectoryAt l.dropLast then return f
  try
    let bytes ← IO.FS.readBinFile (Location.text l)
    return f.put l (.file (.bytes bytes.toList))
  catch
    | .noFileOrDirectory _ _ _ => return f
    | _ => return f.put l .directory

def FileTree.addPath (f : FileTree) (p : Path) : IO FileTree :=
  (beginnings p.names).foldlM (fun f parts => f.addFromDisk (f.lexicalLocation { p with parts })) f

def readWorkingDirectory : IO FileTree := do
  let l := (Path.ofText (← IO.currentDir).toString).names
  return { entries := (beginnings l).map fun d => (d, .directory), workingDirectory := l }

def sourcePaths (words : List String) (environment : Environment) (files : FileTree) :
    List Path :=
  match parseCommand words with
  | .error _ => []
  | .ok arguments =>
    match arguments.layered files environment with
    | .error _ => []
    | .ok merged => (merged.extract.toList ++ merged.database.toList).map .ofText

def readFiles (words : List String) (environment : Environment) : IO FileTree := do
  let files ← (configFiles environment).foldlM FileTree.addPath (← readWorkingDirectory)
  (sourcePaths words environment files).foldlM FileTree.addPath files

def FileTree.writeDatabases (f : FileTree) : IO Unit :=
  f.entries.forM fun (l, entry) =>
    match entry with
    | .file (.database d) => do
      IO.FS.createDirAll (Location.text l.dropLast)
      IO.FS.writeFile (Location.text l) d.script
    | .file (.bytes _) | .directory => return

def Notice.line (elapsed : Duration) (n : Notice) : String :=
  n.level.name ++ " " ++ n.text elapsed.text

def runOnDisk (words : List String) : IO Bool := do
  let start ← IO.monoNanosNow
  let environment ← readEnvironment
  let run := runCommand words environment (← readFiles words environment)
  run.files.writeDatabases
  let elapsed : Duration := ⟨(← IO.monoNanosNow) - start⟩
  (run.readerLog ++ run.log.toList).forM fun n => do
    if n.level ≠ .debug then IO.eprintln (n.line elapsed)
  match run.outcome with
  | .ok _ => return true
  | .error e =>
    IO.eprintln s!"{programName}: {e.message}"
    return false

end MapLoader

def main (words : List String) : IO UInt32 := do
  return if ← MapLoader.runOnDisk words then 0 else 1
