import MapLoader.Config.Arguments
import MapLoader.Load.Thresholds

/-! The command line. Flags are read from left to right; the value of a flag is checked when the
next flag, or the end, is reached. -/

namespace MapLoader

inductive LineError
  | unknownArgument
  /-- A value is not of the kind that its flag takes. -/
  | badValue (field : LoadField)
  | repeated
  | missingValue (field : LoadField)
  /-- A flag that takes no value has one. -/
  | unexpectedValue
  | unknownCommand
  | noCommand
  | helpRequested
  | versionRequested
  deriving DecidableEq, Repr

def programName : String := "osmload"

def versionText : String := programName ++ " 0.1.0\n"

inductive Word
  /-- Two dashes and no more: flags end here. -/
  | flagEnd
  | long (name : String) (value : Option String)
  | short (first : Char)
  | plain (s : String)
  deriving DecidableEq, Repr

def Word.ofString (s : String) : Word :=
  match s.toList with
  | ['-', '-'] => .flagEnd
  | '-' :: '-' :: cs =>
    let name := cs.takeWhile (· ≠ '=')
    match cs.dropWhile (· ≠ '=') with
    | [] => .long (.ofList name) none
    | _ :: value => .long (.ofList name) (some (.ofList value))
  | '-' :: c :: _ => .short c
  | _ => .plain s

def parseSize? (s : String) : Option Nat :=
  let ds := match s.toList with
    | '+' :: cs => cs
    | cs => cs
  if ds.isEmpty || !ds.all Char.isDigit then none
  else
    let n := ds.foldl (fun n c => n * 10 + (c.toNat - '0'.toNat)) 0
    if n ≤ maxUInt64 then some n else none

namespace LoadArguments

def setOnce {α : Type} (old : Option α) (value : LoadArguments) : Except LineError LoadArguments :=
  if old.isSome then .error .repeated else .ok value

def setSize (field : LoadField) (old : Option Nat) (s : String) (put : Nat → LoadArguments) :
    Except LineError LoadArguments :=
  match old with
  | some _ => .error .repeated
  | none =>
    match parseSize? s with
    | none => .error (.badValue field)
    | some n => .ok (put n)

/-- Sets a field from the value of its flag. Only the kinds may be given more than once; commas
part them. -/
def set (a : LoadArguments) (field : LoadField) (s : String) : Except LineError LoadArguments :=
  match field with
  | .extract => setOnce a.extract { a with extract := some s }
  | .database => setOnce a.database { a with database := some s }
  | .kinds => .ok { a with kinds := some (a.kinds.getD [] ++ s.splitOn ",") }
  | .rowThreshold => setSize field a.rowThreshold s fun n => { a with rowThreshold := some n }
  | .commitThreshold =>
    setSize field a.commitThreshold s fun n => { a with commitThreshold := some n }
  | .memberCommitThreshold =>
    setSize field a.memberCommitThreshold s fun n => { a with memberCommitThreshold := some n }
  | .channelCapacity =>
    setSize field a.channelCapacity s fun n => { a with channelCapacity := some n }

end LoadArguments

/-- What was read of a command line: a flag may still wait for its value, or for its value to be
checked. -/
structure LineState where
  arguments : LoadArguments := {}
  pending : Option (LoadField × Option String) := none
  deriving DecidableEq, Repr

namespace LineState

def settle (s : LineState) : Except LineError LineState :=
  match s.pending with
  | none => .ok s
  | some (field, none) => .error (.missingValue field)
  | some (field, some value) =>
    (s.arguments.set field value).map fun arguments => { arguments }

/-- The flag that makes the load skip the indexes; it may be given once. -/
def skipIndexes (s : LineState) : Except LineError LineState := do
  let s ← s.settle
  if s.arguments.skipIndexes then throw .repeated
  return { s with arguments.skipIndexes := true }

def readLong (s : LineState) (name : String) (value : Option String) :
    Except LineError LineState :=
  match LoadField.all.find? fun f => f.flag = name with
  | some field => do
    let s ← s.settle
    match value with
    | none => return { s with pending := some (field, none) }
    | some v => return { arguments := ← s.arguments.set field v }
  | none =>
    if name = "skip-indexes" then
      if value.isSome then .error .unexpectedValue else s.skipIndexes
    else if name = "help" then
      if value.isSome then .error .unexpectedValue
      else do
        let _ ← s.settle
        throw .helpRequested
    else .error .unknownArgument

def readWord (s : LineState) : Word → Except LineError LineState
  | .flagEnd => .ok s
  | .long name value => s.readLong name value
  | .short c =>
    if c = 'h' then do
      let _ ← s.settle
      throw .helpRequested
    else .error .unknownArgument
  | .plain v =>
    match s.pending with
    | some (field, none) => .ok { s with pending := some (field, some v) }
    | some (_, some _) | none => .error .unknownArgument

/-- Reads the words of a load. After the end of the flags there must be none. -/
def readWords (s : LineState) : List Word → Except LineError LoadArguments
  | [] => s.settle.map LineState.arguments
  | [.flagEnd] => s.settle.map LineState.arguments
  | .flagEnd :: _ => .error .unknownArgument
  | w :: rest => do (← s.readWord w).readWords rest

end LineState

def LoadArguments.parse (words : List String) : Except LineError LoadArguments :=
  LineState.readWords {} (words.map Word.ofString)

def parseHelp (words : List String) : LineError :=
  match words with
  | [] | ["load"] | ["help"] => .helpRequested
  | _ => .unknownCommand

def parseCommand (words : List String) : Except LineError LoadArguments :=
  match words with
  | [] => .error .noCommand
  | w :: rest =>
    match Word.ofString w with
    | .flagEnd =>
      match rest with
      | [] => .error .noCommand
      | s :: _ => .error (if s ∈ ["load", "help"] then .unknownArgument else .unknownCommand)
    | .long "help" none | .short 'h' => .error .helpRequested
    | .long "version" none | .short 'V' => .error .versionRequested
    | .long "help" (some _) | .long "version" (some _) => .error .unexpectedValue
    | .long _ _ | .short _ => .error .unknownArgument
    | .plain "load" => LoadArguments.parse rest
    | .plain "help" => .error (parseHelp rest)
    | .plain _ => .error .unknownCommand

end MapLoader
