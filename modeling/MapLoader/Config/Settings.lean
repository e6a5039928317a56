import MapLoader.Config.Arguments
import MapLoader.Files.Tree
import MapLoader.Load.Ingest
import MapLoader.Text.Blank
import MapLoader.Text.Quoted

/-! Checking what was given for a load. The first thing that is wrong is reported, in the order
in which the fields are declared but for the kinds, which come last. -/

namespace MapLoader

inductive SettingsError
  | missing (field : LoadField) (variableName : String)
  | unknownKind (value : String)
  | notPositive (field : LoadField)
  | noSourceFile (path : String)
  deriving DecidableEq, Repr

namespace SettingsError

def message : SettingsError → String
  | missing field variableName => s!"missing {field.flag} (set --{field.flag} or {variableName})"
  | unknownKind value =>
    s!"unknown element kind {Text.quote .word value} in --{LoadField.kinds.flag} " ++
      "(expected node, way or relation)"
  | notPositive field => s!"{field.flag} must be greater than zero"
  | noSourceFile path =>
    s!"{LoadField.extract.flag} path {Text.quote .word path} does not exist or is not a file"

end SettingsError

structure LoadSettings where
  extract : String
  database : String
  options : LoadOptions
  skipIndexes : Bool
  deriving DecidableEq, Repr

def sameWord (a b : String) : Bool := a.toLower == b.toLower

/-- The kind that a word names, in any case of its letters. -/
def ElementKind.parse (s : String) : Except SettingsError ElementKind :=
  match ElementKind.all.find? fun k => sameWord k.name s with
  | some k => .ok k
  | none => .error (.unknownKind s)

def parseWords : List String → Except SettingsError (List ElementKind)
  | [] => .ok []
  | s :: rest =>
    match ElementKind.parse s with
    | .error e => .error e
    | .ok k => (parseWords rest).map (k :: ·)

/-- The kinds that words name, blanks around them apart. Blank words name none. -/
def parseKinds (values : List String) : Except SettingsError (List ElementKind) :=
  parseWords ((values.map Text.trim).filter fun s => !s.isEmpty)

/-- A number that may be left out but must not be zero. -/
def positiveOr (field : LoadField) (fallback : Nat) : Option Nat → Except SettingsError Nat
  | none => .ok fallback
  | some 0 => .error (.notPositive field)
  | some n => .ok n

def given (field : LoadField) (variableName : String) : Option String → Except SettingsError String
  | none => .error (.missing field variableName)
  | some s => .ok s

def filterOf : Option (List String) → Except SettingsError ElementFilter
  | none => .ok .all
  | some values => (parseKinds values).map .only

def LoadSettings.ofArguments (a : LoadArguments) : Except SettingsError LoadSettings := do
  let extract ← given .extract "OSMLOAD_CMDS_LOAD_OSM_PBF" a.extract
  let database ← given .database "OSMLOAD_CMDS_LOAD_DATABASE" a.database
  let row ← positiveOr .rowThreshold Thresholds.default.row a.rowThreshold
  let commit ← positiveOr .commitThreshold Thresholds.default.commit a.commitThreshold
  let derived := Thresholds.ofRowCommit row commit
  let member ← positiveOr .memberCommitThreshold derived.memberCommit a.memberCommitThreshold
  let channelCapacity ← positiveOr .channelCapacity ({} : LoadOptions).channelCapacity
    a.channelCapacity
  let filter ← filterOf a.kinds
  return {
    extract, database
    options := { thresholds := derived.withMemberCommit member, filter, channelCapacity }
    skipIndexes := a.skipIndexes }

def LoadSettings.checkSource (s : LoadSettings) (files : FileTree) : Except SettingsError Unit :=
  if files.isFile (.ofText s.extract) then .ok () else .error (.noSourceFile s.extract)

end MapLoader
