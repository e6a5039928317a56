import MapLoader.Wire.Varint

/-! Messages as lists of numbered fields. What a payload means is up to whoever looks for the
number of its field; fields that nobody looks for are left alone. -/

namespace MapLoader.Wire

/-- What a field carries, as far as it can be told without knowing the field. -/
inductive Payload
  | varint (n : Nat)
  /-- Bytes, and how many were announced. There may be fewer when the data ends too early. -/
  | bytes (bs : List UInt8) (announced : Nat)
  /-- Four or eight bytes. -/
  | fixed (bs : List UInt8)
  deriving DecidableEq, Repr

def Payload.isWhole : Payload → Bool
  | varint _ | fixed _ => true
  | bytes bs announced => bs.length == announced

structure Field where
  number : Nat
  payload : Payload
  deriving DecidableEq, Repr

inductive Token
  | field (f : Field)
  | groupStart
  | groupEnd
  deriving DecidableEq, Repr

structure Step where
  token : Token
  size : Nat
  deriving DecidableEq, Repr

def readFixed (number n : Nat) (bs : List UInt8) : Option (Step × Remainder bs) :=
  let taken := bs.take n
  if taken.length = n then some (⟨.field ⟨number, .fixed taken⟩, n⟩, ⟨bs.drop n, by simp⟩)
  else none

/-- A field of as many bytes as it announces. With the announcement they must not be more than
`limit`. -/
def readDelimited (limit number : Nat) (bs : List UInt8) : Option (Step × Remainder bs) :=
  match readVarint bs with
  | none => none
  | some (n, ⟨rest, h⟩) =>
    if n.size + n.value ≤ limit then
      some (⟨.field ⟨number, .bytes (rest.take n.value) n.value⟩, n.size + n.value⟩,
        ⟨rest.drop n.value, Nat.le_trans (List.drop_sublist _ _).length_le (Nat.le_of_lt h)⟩)
    else none

def readToken (limit number wireType : Nat) (bs : List UInt8) : Option (Step × Remainder bs) :=
  match wireType with
  | 0 =>
    match readVarint bs with
    | none => none
    | some (n, ⟨rest, h⟩) =>
      some (⟨.field ⟨number, .varint n.value⟩, n.size⟩, ⟨rest, Nat.le_of_lt h⟩)
  | 1 => readFixed number 8 bs
  | 2 => readDelimited limit number bs
  | 3 => some (⟨.groupStart, 0⟩, ⟨bs, Nat.le_refl _⟩)
  | 4 => some (⟨.groupEnd, 0⟩, ⟨bs, Nat.le_refl _⟩)
  | 5 => readFixed number 4 bs
  | _ => none

/-- Reads a tag and what it announces. No field has the number zero. -/
def nextStep (limit : Nat) (bs : List UInt8) : Option (Step × Shorter bs) :=
  match readVarint32 bs with
  | none => none
  | some (tag, ⟨rest, h⟩) =>
    if tag.value / 8 = 0 then none
    else
      match readToken (limit - tag.size) (tag.value / 8) (tag.value % 8) rest with
      | none => none
      | some (s, ⟨rest', h'⟩) =>
        some ({ s with size := tag.size + s.size }, ⟨rest', Nat.lt_of_le_of_lt h' h⟩)

/-- The fields of a message in order, less those inside groups; `depth` groups are open. The
message was announced to have `limit` bytes, and `bs` are those that are there. -/
def readFields (limit depth : Nat) (bs : List UInt8) : Option (List Field) :=
  if bs.isEmpty then
    if depth = 0 then some [] else none
  else
    match nextStep limit bs with
    | none => none
    | some (⟨.groupStart, size⟩, ⟨rest, _⟩) => readFields (limit - size) (depth + 1) rest
    | some (⟨.groupEnd, size⟩, ⟨rest, _⟩) =>
      if depth = 0 then none else readFields (limit - size) (depth - 1) rest
    | some (⟨.field f, size⟩, ⟨rest, _⟩) =>
      if depth = 0 then (readFields (limit - size) depth rest).map (f :: ·)
      else if f.payload.isWhole then readFields (limit - size) depth rest
      else none
termination_by bs.length

/-- The fields of a message of which `announced` bytes were promised. -/
def fieldsWithin? (announced : Nat) (bs : List UInt8) : Option (List Field) :=
  readFields announced 0 bs

def fields? (bs : List UInt8) : Option (List Field) := fieldsWithin? maxUInt64 bs

/-- Bytes may be missing only inside fields that are messages or packed numbers. -/
def cutOnlyIn (numbers : List Nat) (fields : List Field) : Option Unit :=
  if fields.all fun f => f.payload.isWhole || f.number ∈ numbers then some () else none

/-- How the payload of a known field is read: not at all, because it is written in another way,
or to some values, or it is broken. -/
abbrev Reading (α : Type) := Payload → Option (List α)

variable {α : Type}

def scalar (decode : Nat → Option α) : Reading α
  | .varint n => (decode n).map fun a => [a]
  | _ => some []

def readPacked (bs : List UInt8) : Option (List Nat) :=
  if bs.isEmpty then some []
  else
    match readVarint bs with
    | none => none
    | some (n, ⟨rest, _⟩) => (readPacked rest).map (n.value :: ·)
termination_by bs.length

/-- A field that repeats a number: one in each field, or many packed into one. -/
def repeated (decode : Nat → Option α) : Reading α
  | .varint n => (decode n).map fun a => [a]
  | .bytes bs _ =>
    match readPacked bs with
    | none => none
    | some ns => ns.mapM decode
  | .fixed _ => some []

def delimited (decode : List UInt8 → Option α) : Reading α
  | .bytes bs _ => (decode bs).map fun a => [a]
  | _ => some []

def message (read : List Field → Option α) : Reading α
  | .bytes bs announced => ((fieldsWithin? announced bs).bind read).map fun a => [a]
  | _ => some []

def values (number : Nat) (read : Reading α) (fields : List Field) : Option (List α) :=
  ((fields.filter fun f => f.number = number).mapM fun f => read f.payload).map List.flatten

/-- Of the values of a field that is there once the last counts. -/
def last (number : Nat) (read : Reading α) (fields : List Field) : Option (Option α) :=
  (values number read fields).map List.getLast?

def required (number : Nat) (read : Reading α) (fields : List Field) : Option α :=
  match values number read fields with
  | none => none
  | some vs => vs.getLast?

end MapLoader.Wire
