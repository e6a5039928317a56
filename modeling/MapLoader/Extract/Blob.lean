import MapLoader.Extract.Message
import MapLoader.Flate.Inflate

/-! The frames of an extract file: a size, a header that names a kind and a second size, and the
content, which may be compressed. -/

namespace MapLoader.Extract

inductive Place
  | header | content | raw | compressed
  deriving DecidableEq, Repr

def Place.text : Place → String
  | header => "blob header"
  | content => "blob content"
  | raw => "raw blob data"
  | compressed => "blob zlib data"

inductive DecodeError
  /-- The file cannot be read at all. -/
  | headerSize
  | headerTooBig (size : Nat)
  | broken (place : Place)
  | contentTooBig (size : Nat)
  /-- The content is there in no known form. -/
  | noContent
  deriving DecidableEq, Repr

def DecodeError.message : DecodeError → String
  | headerSize => "blob header size could not be decoded"
  | headerTooBig size => s!"blob header is too big: {size} bytes"
  | broken place => s!"protobuf error at '{place.text}'"
  | contentTooBig size => s!"blob message is too big: {size} bytes"
  | noContent => "blob is missing fields 'raw' and 'zlib_data'"

inductive Content
  | raw (bytes : List UInt8)
  | compressed (bytes : List UInt8)
  | unknown
  deriving DecidableEq, Repr

structure Blob where
  kind : String
  content : Content
  deriving DecidableEq, Repr

structure BlobHeader where
  kind : String
  size : Int32
  deriving DecidableEq, Repr

open Wire

def BlobHeader.read (fs : List Field) : Option BlobHeader := do
  cutOnlyIn [] fs
  let kind ← required 1 string fs
  let _ ← values 2 bytes fs
  let size ← required 3 int32 fs
  return { kind, size }

def Content.ofField? (f : Field) : Option Content :=
  match f.payload with
  | .bytes bs _ =>
    match f.number with
    | 1 => some (.raw bs)
    | 3 => some (.compressed bs)
    | 4 | 5 | 6 | 7 => some .unknown
    | _ => none
  | _ => none

/-- Of several contents the last counts. -/
def Content.read (fs : List Field) : Option Content := do
  cutOnlyIn [] fs
  let _ ← values 2 int32 fs
  return (fs.filterMap Content.ofField?).getLast?.getD .unknown

def contentLimit : Nat := 32 * 1024 * 1024

/-- The bytes of the content and where they come from. Raw content that is too long is refused;
of compressed content nothing past the limit is read. -/
def Content.bytes : Content → Except DecodeError (Place × List UInt8)
  | raw bs => if bs.length < contentLimit then .ok (.raw, bs) else .error (.contentTooBig bs.length)
  | compressed bs =>
    match Flate.unzlib? ⟨bs.toArray⟩ with
    | some out => .ok (.compressed, out.toList.take contentLimit)
    | none => .error (.broken .compressed)
  | unknown => .error .noContent

def headerLimit : Nat := 65536

/-- A negative size stands for all that is left. -/
def sizeIn (size : Int32) (bs : List UInt8) : Nat :=
  if size.toInt < 0 then bs.length else size.toInt.toNat

/-- The next frame and what follows it. Fewer than four bytes are the end of the file. -/
def nextBlob (bs : List UInt8) : Except DecodeError (Option (Blob × Shorter bs)) :=
  match bs with
  | a :: b :: c :: d :: rest =>
    let size := ((a.toNat * 256 + b.toNat) * 256 + c.toNat) * 256 + d.toNat
    if headerLimit ≤ size then .error (.headerTooBig size)
    else
      match (fields? (rest.take size)).bind BlobHeader.read with
      | none => .error (.broken .header)
      | some header =>
        let rest' := rest.drop size
        let n := sizeIn header.size rest'
        match (fields? (rest'.take n)).bind Content.read with
        | none => .error (.broken .content)
        | some content =>
          .ok (some (⟨header.kind, content⟩,
            ⟨rest'.drop n, by simp only [rest', List.length_drop, List.length_cons]; omega⟩))
  | _ => .ok none

end MapLoader.Extract
