import MapLoader.Extract.Stream
import MapLoader.Files.Tree
import MapLoader.Load.Ingest
import MapLoader.Text.Quoted

/-! Loading an extract from a file. What was read before an error is loaded all the same; the
error of the reader then comes before one of the store. -/

namespace MapLoader

inductive LoadError
  | open (path : Path) (source : FileError)
  | decode (path : Path) (source : Extract.DecodeError)
  /-- The reader gave up on a record. -/
  | reader (path : Path)
  | store (source : SessionError)
  deriving DecidableEq, Repr

namespace LoadError

def quoted (p : Path) : String := Text.quote .path p.text

def message : LoadError → String
  | .open path _ => s!"failed to open OSM PBF file at {quoted path}"
  | decode path _ => s!"failed to decode OSM PBF data at {quoted path}"
  | reader path => s!"PBF reader thread panicked while decoding {quoted path}"
  | store _ => "failed to commit the load"

def chain : LoadError → List String
  | .open _ source => [source.message]
  | decode _ source => [source.message]
  | reader _ => []
  | store source => source.message :: source.chain

end LoadError

/-- The bytes that a database file starts with. -/
def databaseSignature : List UInt8 := "SQLite format 3".toUTF8.toList ++ [0]

def FileEntry.stream : FileEntry → Extract.Stream
  | directory => ⟨[], .broken .headerSize⟩
  | file (.bytes bs) => .ofBytes bs
  | file (.database _) => .ofBytes databaseSignature

/-- How loading a file came out: the session afterwards, whose log is what the writer told, and
what the reader told. -/
structure LoadRun (σ κ : Type) where
  outcome : Except LoadError Report
  session : Session σ κ
  readerLog : List Notice := []

variable {σ κ : Type}

/-- What a load came to, from how reading ended and what the writer came to. -/
def LoadRun.conclude (path : Path) (ending : Extract.Ending) (malformed : List Malformed)
    (outcome : Except SessionError Report) (session : Session σ κ) : LoadRun σ κ :=
  let session := { session with log := #[.loading path.text] ++ session.log }
  let readerLog := malformed.map .malformedElement
  let dropped := malformed.length
  match ending, outcome with
  | .aborted, _ => ⟨.error (.reader path), session, readerLog⟩
  | .broken e, _ => ⟨.error (.decode path e), session, readerLog⟩
  | .complete, .error e => ⟨.error (.store e), session, readerLog⟩
  | .complete, .ok report =>
    let session := if 0 < dropped then session.tell (.droppedElements dropped) else session
    ⟨.ok { report with malformed := dropped }, session, readerLog⟩

variable [Store σ κ]

def loadStream (options : LoadOptions) (store : σ) (path : Path) (stream : Extract.Stream) :
    LoadRun σ κ :=
  let (outcome, session) := ingest options store stream.entities
  .conclude path stream.ending stream.malformed outcome session

def loadExtract (options : LoadOptions) (store : σ) (path : Path) (files : FileTree) :
    LoadRun σ κ :=
  match files.entryAt path with
  | .error e =>
    { outcome := .error (.open path e), session := { store, log := #[.loading path.text] } }
  | .ok entry => loadStream options store path entry.stream

end MapLoader
