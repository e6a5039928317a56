import MapLoader.Config.Arguments
import MapLoader.Config.Toml.Document
import MapLoader.Config.Variable
import MapLoader.Files.Tree
import MapLoader.Text.Utf8

/-! Where the settings of a load come from: files, then environment variables, then the command
line. What comes later counts. -/

namespace MapLoader

inductive ConfigError
  /-- A file is not well-formed. -/
  | file
  /-- A value does not fit its field. -/
  | value
  deriving DecidableEq, Repr

abbrev Environment := List (String × String)

def loadSection (document : Section) : Section :=
  match document.find? "cmds" with
  | some (.table commands) =>
    match Section.find? commands "osmload-cli" with
    | some (.table settings) => settings
    | _ => []
  | _ => []

/-- The files that may hold settings, the least important first. -/
def configFiles (environment : Environment) : List Path :=
  let home := (environment.lookup "HOME").map fun h => h ++ "/.osmload.toml"
  let shared := (environment.lookup "XDG_CONFIG_HOME").map fun d => d ++ "/osmload/config.toml"
  (home.toList ++ shared.toList ++ [".osmload.toml"]).map .ofText

def Section.ofBytes (bs : List UInt8) : Except ConfigError Section :=
  match Text.decodeUtf8 bs with
  | .error _ => .error .file
  | .ok s =>
    match Toml.read? s with
    | none => .error .file
    | some document => .ok (loadSection document)

/-- The section of a file; a path that leads to no file has none. -/
def FileTree.readSection (files : FileTree) (p : Path) : Except ConfigError Section :=
  match files.entryAt p with
  | .ok (.file (.bytes bs)) => Section.ofBytes bs
  | .ok (.file (.database _)) => .error .file
  | .ok .directory | .error _ => .ok []

/-- Names of variables start with this, in any case of its letters. -/
def variablePrefix : String := "OSMLOAD_CMDS_OSMLOAD_CLI_"

def variableField? (name : String) : Option String :=
  let p := variablePrefix.toLower.toList
  let cs := name.toLower.toList
  if p.isPrefixOf cs then some (.ofList (cs.drop p.length)) else none

/-- The names that double underscores and points set apart, up to the first empty one. -/
def splitField (s : String) : List String :=
  ((s.replace "__" ".").splitOn ".").takeWhile fun t => !t.isEmpty

def nest (value : Setting) : List String → Setting
  | [] => value
  | name :: rest => .table [(name, nest value rest)]

def ofVariable? (name value : String) : Option (String × Setting) :=
  match (variableField? name).map splitField with
  | some (field :: rest) => some (field, nest (Variable.read value) rest)
  | some [] | none => none

def Section.ofEnvironment (environment : Environment) : Section :=
  environment.filterMap fun (name, value) => ofVariable? name value

namespace Setting

def text? : Setting → Except ConfigError String
  | text s => .ok s
  | _ => .error .value

def size? : Setting → Except ConfigError Nat
  | whole n => if 0 ≤ n ∧ n ≤ maxUInt64 then .ok n.toNat else .error .value
  | _ => .error .value

def texts? : Setting → Except ConfigError (List String)
  | list items => items.mapM text?
  | _ => .error .value

end Setting

/-- What the command line gives, or else what the section gives, read for its field. -/
def resolve {α : Type} (s : Section) (field : LoadField) (read : Setting → Except ConfigError α) :
    Option α → Except ConfigError (Option α)
  | some a => .ok (some a)
  | none =>
    match s.find? field.key with
    | none => .ok none
    | some value => (read value).map some

/-- Fills in from a section what the command line does not give. Whether indexes are skipped is
for the command line alone to say. -/
def LoadArguments.fillFrom (s : Section) (a : LoadArguments) :
    Except ConfigError LoadArguments := do
  let extract ← resolve s .extract Setting.text? a.extract
  let database ← resolve s .database Setting.text? a.database
  let kinds ← resolve s .kinds Setting.texts? a.kinds
  let rowThreshold ← resolve s .rowThreshold Setting.size? a.rowThreshold
  let commitThreshold ← resolve s .commitThreshold Setting.size? a.commitThreshold
  let memberCommitThreshold ← resolve s .memberCommitThreshold Setting.size?
    a.memberCommitThreshold
  let channelCapacity ← resolve s .channelCapacity Setting.size? a.channelCapacity
  return {
    extract, database, kinds, rowThreshold, commitThreshold, memberCommitThreshold
    channelCapacity, skipIndexes := a.skipIndexes }

def LoadArguments.layered (files : FileTree) (environment : Environment) (a : LoadArguments) :
    Except ConfigError LoadArguments := do
  let sections ← (configFiles environment).mapM files.readSection
  a.fillFrom (sections.flatten ++ Section.ofEnvironment environment)

end MapLoader
