import MapLoader.Database.Basic
import MapLoader.Files.Path

/-! A tree of directories and files without links, and a working directory in it. -/

namespace MapLoader

abbrev Location := List String

inductive FileError
  | notFound
  | notADirectory
  | exists
  /-- The path leaves the directory that it has to stay in. -/
  | escapes
  deriving DecidableEq, Inhabited, Repr

namespace FileError

def message : FileError → String
  | notFound => "No such file or directory (os error 2)"
  | notADirectory => "Not a directory (os error 20)"
  | .exists => "File exists (os error 17)"
  | escapes => "a path led outside of the filesystem"

def kindName : FileError → String
  | notFound => "NotFound"
  | notADirectory => "NotADirectory"
  | .exists => "AlreadyExists"
  | escapes => "PermissionDenied"

end FileError

inductive FileContent
  | bytes (bs : List UInt8)
  | database (d : Database)
  deriving DecidableEq, Inhabited

/-- The database in a file: an empty file is an empty database. -/
def FileContent.database? : FileContent → Option Database
  | bytes bs => if bs.isEmpty then some {} else none
  | database d => some d

inductive FileEntry
  | directory
  | file (content : FileContent)
  deriving DecidableEq, Inhabited

structure FileTree where
  entries : List (Location × FileEntry) := []
  workingDirectory : Location := []
  deriving DecidableEq, Inhabited

namespace FileTree

def lookup (f : FileTree) (l : Location) : Option FileEntry :=
  if l.isEmpty then some .directory else (f.entries.find? fun e => e.1 == l).map Prod.snd

def isDirectoryAt (f : FileTree) (l : Location) : Bool := f.lookup l == some .directory

def put (f : FileTree) (l : Location) (e : FileEntry) : FileTree :=
  { f with entries := (l, e) :: f.entries.filter fun x => x.1 != l }

def remove (f : FileTree) (l : Location) : FileTree :=
  { f with entries := f.entries.filter fun x => x.1 != l }

/-- Every entry stands in a directory. -/
def WellFormed (f : FileTree) : Prop :=
  (∀ l, (f.lookup l).isSome → f.isDirectoryAt l.dropLast) ∧ f.isDirectoryAt f.workingDirectory

/-- Follows the parts of a path. All but the last have to be directories, and so has the last
when an empty part or a dot follows it. With a `floor`, the walk may not leave that directory. -/
def walk (f : FileTree) (floor : Option Location) : Location → List String →
    Except FileError Location
  | l, [] => .ok l
  | l, s :: rest =>
    match f.lookup l with
    | none => .error .notFound
    | some (.file _) => .error .notADirectory
    | some .directory =>
      if s = "" ∨ s = "." then walk f floor l rest
      else if s = ".." then
        if floor = some l then .error .escapes else walk f floor l.dropLast rest
      else if (f.lookup (l ++ [s])).isSome then walk f floor (l ++ [s]) rest
      else .error .notFound

def startOf (f : FileTree) (p : Path) : Location := if p.absolute then [] else f.workingDirectory

def resolve (f : FileTree) (p : Path) : Except FileError Location :=
  if p.isEmpty then .error .notFound else f.walk none (f.startOf p) p.parts

def entryAt (f : FileTree) (p : Path) : Except FileError FileEntry :=
  match f.resolve p with
  | .error e => .error e
  | .ok l =>
    match f.lookup l with
    | some e => .ok e
    | none => .error .notFound

def isFile (f : FileTree) (p : Path) : Bool :=
  match f.entryAt p with
  | .ok (.file _) => true
  | _ => false

/-- Makes the directory that `names` lead to from a base; the directory above it has to exist.
Neither the walk nor the new name may leave the base. -/
def makeDirectory (f : FileTree) (base : Location) (above : List String) (name : String) :
    Except FileError FileTree :=
  if name = ".." then
    match f.walk (some base) base (above ++ [name]) with
    | .error e => .error e
    | .ok _ => .error .exists
  else
    match f.walk (some base) base above with
    | .error e => .error e
    | .ok l =>
      if !f.isDirectoryAt l then .error .notADirectory
      else if (f.lookup (l ++ [name])).isSome then .error .exists
      else .ok (f.put (l ++ [name]) .directory)

/-- Whether names lead from a base to a directory without leaving the base. -/
def reachesDirectory (f : FileTree) (base : Location) (names : List String) : Bool :=
  match f.walk (some base) base names with
  | .error _ => false
  | .ok l => f.isDirectoryAt l

/-- Makes a directory and those above it that are missing; the names come last one first.
Directories made before an error stay. -/
def makeDirectories (f : FileTree) (base : Location) : List String →
    Except FileError Unit × FileTree
  | [] => (.ok (), f)
  | name :: above =>
    match f.makeDirectory base above.reverse name with
    | .ok f => (.ok (), f)
    | .error .notFound =>
      match f.makeDirectories base above with
      | (.error e, f) => (.error e, f)
      | (.ok _, f) =>
        match f.makeDirectory base above.reverse name with
        | .ok f => (.ok (), f)
        | .error e =>
          if f.reachesDirectory base (name :: above).reverse then (.ok (), f) else (.error e, f)
    | .error e =>
      if f.reachesDirectory base (name :: above).reverse then (.ok (), f) else (.error e, f)

/-- Where a path leads when its parts are followed in the text alone, with `..` taking back the
name before it. -/
def lexicalLocation (f : FileTree) (p : Path) : Location :=
  p.names.foldl (fun l s => if s = ".." then l.dropLast else l ++ [s]) (f.startOf p)

end FileTree

end MapLoader
