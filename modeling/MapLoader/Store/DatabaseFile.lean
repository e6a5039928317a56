import MapLoader.Files.Tree
import MapLoader.Notice
import MapLoader.Store.Relational
import MapLoader.Text.Quoted

/-! A database in a file. Making one provides the directory and the tables; as a store it opens
the file anew for every connection.

The file is shown as it is when no connection is open. The journal and the shared index that the
database library keeps in files beside it while one is open are not in the tree. Nor is a path that
begins with `file:` read as an address with options, as the library does; it counts as a name. What
is said of such paths is said of this reading alone. -/

namespace MapLoader

structure DatabaseFile where
  path : Path
  files : FileTree
  deriving DecidableEq, Inhabited

inductive DatabaseFile.Error
  | createDirectory (path : Path) (source : FileError)
  | open (path : Path) (source : DatabaseError)
  | pragma (name : String) (source : DatabaseError)
  | migration (source : SchemaError)
  deriving DecidableEq, Inhabited, Repr

namespace DatabaseFile.Error

def quoted (p : Path) : String := Text.quote .word p.text

def message : DatabaseFile.Error → String
  | createDirectory path _ => s!"failed to create parent directory {quoted path}"
  | .open path _ => s!"failed to open SQLite database at {quoted path}"
  | pragma name _ => s!"failed to set SQLite pragma {name}"
  | migration source => s!"failed to execute schema step '{source.step}'"

def chain : DatabaseFile.Error → List String
  | createDirectory _ source => [source.message]
  | .open _ source | pragma _ source => source.chain
  | migration source => source.source.chain

end DatabaseFile.Error

namespace DatabaseFile

/-- Paths that stand for a database of the connection's own, kept in no file. -/
def isPrivate (p : Path) : Bool := p.isEmpty || p.text == ":memory:"

/-- The path is the name of a file: it is not private and the library does not read it as an
address. -/
def namesFile (p : Path) : Bool := !isPrivate p && !"file:".toList.isPrefixOf p.text.toList

/-- Finds the database file of a path, and makes an empty one if there is none. A private
database has no location. -/
def locate (p : Path) (f : FileTree) : Except DatabaseError (Option Location) × FileTree :=
  if isPrivate p then (.ok none, f)
  else
    let l := f.lexicalLocation p
    match f.lookup l with
    | some .directory => (.error (.cannotOpen p.text), f)
    | some (.file _) => (.ok (some l), f)
    | none =>
      if f.isDirectoryAt l.dropLast then (.ok (some l), f.put l (.file (.bytes [])))
      else (.error (.cannotOpen p.text), f)

def read (f : FileTree) (l : Location) : Except DatabaseError Database :=
  match f.lookup l with
  | some (.file content) =>
    match content.database? with
    | some d => .ok d
    | none => .error .notADatabase
  | _ => .ok {}

def writeBack (f : FileTree) (l : Location) (d : Database) : FileTree :=
  f.put l (.file (.database d))

def ensureParent (p : Path) (f : FileTree) : Except DatabaseFile.Error Unit × FileTree :=
  match p.parent? with
  | none => (.ok (), f)
  | some parent =>
    if parent.text = "" ∨ parent.text = "/" then (.ok (), f)
    else
      let (outcome, f) := f.makeDirectories (f.startOf parent) parent.names.reverse
      (outcome.mapError (.createDirectory parent), f)

def migrateAt (change : Database → Except SchemaError Unit × Database) (first : String)
    (l : Location) (f : FileTree) : Except DatabaseFile.Error Unit × FileTree :=
  match read f l with
  | .error e => (.error (.migration ⟨first, e⟩), f)
  | .ok d =>
    match change d with
    | (.error e, _) => (.error (.migration e), f)
    | (.ok _, d) => (.ok (), writeBack f l d)

/-- Makes a database file ready: its directory, a write-ahead log and the six tables. -/
def create (p : Path) (f : FileTree) : Except DatabaseFile.Error DatabaseFile × FileTree :=
  match ensureParent p f with
  | (.error e, f) => (.error e, f)
  | (.ok _, f) =>
    match locate p f with
    | (.error e, f) => (.error (.open p e), f)
    | (.ok none, f) => (.ok ⟨p, f⟩, f)
    | (.ok (some l), f) =>
      match read f l with
      | .error e => (.error (.pragma "journal_mode" e), f)
      | .ok d =>
        let f := writeBack f l { d with journal := .wal }
        let (outcome, f) := migrateAt Database.bootstrap "create users" l f
        (outcome.map fun _ => ⟨p, f⟩, f)

def createIndexes (s : DatabaseFile) : Except DatabaseFile.Error Unit × DatabaseFile :=
  match locate s.path s.files with
  | (.error e, files) => (.error (.open s.path e), { s with files })
  | (.ok none, files) =>
    ((Database.createIndexes {}).1.mapError .migration, { s with files })
  | (.ok (some l), files) =>
    let (outcome, files) := migrateAt Database.createIndexes "index users" l files
    (outcome, { s with files })

def indexedNotice (s : DatabaseFile) : Notice := .indexed s.path.text

structure Connection where
  location : Option Location
  /-- The database of a connection that has no file. -/
  ownDatabase : Database := {}
  inner : Database.Connection := {}
  deriving DecidableEq, Inhabited

def connect (s : DatabaseFile) : Except StoreError Connection × DatabaseFile :=
  match locate s.path s.files with
  | (.error e, files) => (.error ⟨.connect, .database e⟩, { s with files })
  | (.ok none, files) => (.ok ⟨none, {}, {}⟩, { s with files })
  | (.ok (some l), files) =>
    match read files l with
    | .error e => (.error ⟨.configure, .database e⟩, { s with files })
    | .ok _ => (.ok ⟨some l, {}, {}⟩, { s with files })

def current (c : Connection) (s : DatabaseFile) : Database :=
  match c.location with
  | none => c.ownDatabase
  | some l =>
    match read s.files l with
    | .ok d => d
    | .error _ => {}

/-- Carries out an operation that leaves the file as it is. -/
def observe {α : Type}
    (operation : Database.Connection → Database → α × Database.Connection × Database)
    (c : Connection) (s : DatabaseFile) : α × Connection × DatabaseFile :=
  let (outcome, inner, _) := operation c.inner (current c s)
  (outcome, { c with inner }, s)

/-- The file changes only when there is a transaction to commit. -/
def commit (c : Connection) (s : DatabaseFile) :
    Except StoreError Unit × Connection × DatabaseFile :=
  let (outcome, inner, d) := Database.commit c.inner (current c s)
  match c.location, c.inner.transaction with
  | none, _ => (outcome, { c with inner, ownDatabase := d }, s)
  | some _, none => (outcome, { c with inner }, s)
  | some l, some _ => (outcome, { c with inner }, { s with files := writeBack s.files l d })

instance : Store DatabaseFile Connection where
  connect
  prepare t := observe (Database.prepare t)
  addRow r := observe (Database.addRow r)
  pending c := c.inner.pending.size
  clearBatch c := { c with inner := Store.clearBatch Database c.inner }
  execute := observe Database.execute
  commit
  rollback := observe Database.rollback
  close _ s := (.ok (), s)

end DatabaseFile

end MapLoader
