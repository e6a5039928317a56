import MapLoader.Extract.Blob
import MapLoader.Extract.Element

/-! An extract as a stream: its elements in file order, malformed ones marked, and how reading
them ended. -/

namespace MapLoader.Extract

inductive Ending
  | complete
  | broken (error : DecodeError)
  /-- A record made the reader give up. -/
  | aborted
  deriving DecidableEq, Repr

def readBlobs (bs : List UInt8) : List Blob × Ending :=
  match nextBlob bs with
  | .error e => ([], .broken e)
  | .ok none => ([], .complete)
  | .ok (some (blob, ⟨rest, _⟩)) =>
    let (blobs, ending) := readBlobs rest
    (blob :: blobs, ending)
termination_by bs.length

abbrev Item := Except Malformed Entity

structure Stream where
  items : List Item
  ending : Ending

namespace Stream

def empty : Stream := ⟨[], .complete⟩

def cons (item : Item) (s : Stream) : Stream := { s with items := item :: s.items }

/-- What follows a stream counts only if that one was read to its end. -/
def append (s t : Stream) : Stream :=
  match s.ending with
  | .complete => ⟨s.items ++ t.items, t.ending⟩
  | .broken _ | .aborted => s

instance : Append Stream := ⟨append⟩

def entities (s : Stream) : List Entity := s.items.filterMap Except.toOption

def malformed (s : Stream) : List Malformed :=
  s.items.filterMap fun
    | .ok _ => none
    | .error reason => some reason

def ofRecords (block : Block) : List Record → Stream
  | [] => empty
  | r :: rest =>
    match r.toEntity block with
    | .ok e => (ofRecords block rest).cons (.ok e)
    | .error (.malformed reason) => (ofRecords block rest).cons (.error reason)
    | .error (.unknownMemberType _) => ⟨[], .aborted⟩

/-- Frames of unknown kinds are passed over, whatever they hold. -/
def ofBlob (blob : Blob) : Stream :=
  if blob.kind = "OSMHeader" then
    match blob.content.bytes with
    | .error e => ⟨[], .broken e⟩
    | .ok (place, bs) => if isHeader bs then empty else ⟨[], .broken (.broken place)⟩
  else if blob.kind = "OSMData" then
    match blob.content.bytes with
    | .error e => ⟨[], .broken e⟩
    | .ok (place, bs) =>
      match Block.ofBytes? bs with
      | none => ⟨[], .broken (.broken place)⟩
      | some block => ofRecords block block.records
  else empty

def ofBytes (bs : List UInt8) : Stream :=
  let (blobs, ending) := readBlobs bs
  (blobs.map ofBlob).foldr append ⟨[], ending⟩

@[simp] theorem items_empty : empty.items = [] := rfl

@[simp] theorem ending_empty : empty.ending = .complete := rfl

@[simp] theorem entities_cons_ok (e : Entity) (s : Stream) :
    (s.cons (.ok e)).entities = e :: s.entities := rfl

@[simp] theorem entities_cons_error (reason : Malformed) (s : Stream) :
    (s.cons (.error reason)).entities = s.entities := rfl

end Stream

end MapLoader.Extract
