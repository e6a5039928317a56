import MapLoader.Flate.Huffman

/-! The deflate format: blocks of stored bytes, or of literals and references to earlier output
in a fixed or a transmitted code. The zlib format adds a header and a checksum. -/

namespace MapLoader.Flate

/-- Least length and number of extra bits of the length symbols, from 257 on. -/
def lengthTable : Array (Nat × Nat) :=
  #[(3, 0), (4, 0), (5, 0), (6, 0), (7, 0), (8, 0), (9, 0), (10, 0), (11, 1), (13, 1), (15, 1),
    (17, 1), (19, 2), (23, 2), (27, 2), (31, 2), (35, 3), (43, 3), (51, 3), (59, 3), (67, 4),
    (83, 4), (99, 4), (115, 4), (131, 5), (163, 5), (195, 5), (227, 5), (258, 0)]

/-- Least distance and number of extra bits of the distance symbols. -/
def distanceTable : Array (Nat × Nat) :=
  #[(1, 0), (2, 0), (3, 0), (4, 0), (5, 1), (7, 1), (9, 2), (13, 2), (17, 3), (25, 3), (33, 4),
    (49, 4), (65, 5), (97, 5), (129, 6), (193, 6), (257, 7), (385, 7), (513, 8), (769, 8),
    (1025, 9), (1537, 9), (2049, 10), (3073, 10), (4097, 11), (6145, 11), (8193, 12),
    (12289, 12), (16385, 13), (24577, 13)]

@[irreducible] def lengthBase? (symbol : Nat) : Option (Nat × Nat) := lengthTable[symbol - 257]?

@[irreducible] def distanceBase? (symbol : Nat) : Option (Nat × Nat) := distanceTable[symbol]?

/-- The order in which the lengths of the code for lengths are sent. -/
def lengthOrder : List Nat := [16, 17, 18, 0, 8, 7, 9, 6, 10, 5, 11, 4, 12, 3, 13, 2, 14, 1, 15]

/-- Repeats `n` bytes from `distance` back; the copy may run into what it writes. -/
def copyBack (distance : Nat) : Nat → ByteArray → ByteArray
  | 0, out => out
  | n + 1, out => copyBack distance n (out.push (out[out.size - distance]?.getD 0))

def extended? (entry : Option (Nat × Nat)) (b : Bits) :
    Option (Nat × { c : Bits // c.left ≤ b.left }) :=
  match entry with
  | none => none
  | some (base, extra) =>
    match b.number? extra with
    | none => none
    | some (n, c) => some (base + n, c)

inductive Item where
  | literal (byte : UInt8)
  | stop
  | copy (length distance : Nat)

/-- The item that begins with the given symbol, which is already read. -/
def readItem? (distances : Huffman) (symbol : Nat) (b : Bits) :
    Option (Item × { c : Bits // c.left ≤ b.left }) :=
  if symbol < 256 then some (.literal (.ofNat symbol), b.same)
  else if symbol = 256 then some (.stop, b.same)
  else
    match extended? (lengthBase? symbol) b with
    | none => none
    | some (length, ⟨c, hc⟩) =>
      match distances.read? c with
      | none => none
      | some (t, ⟨d, hd⟩) =>
        match extended? (distanceBase? t) d with
        | none => none
        | some (distance, ⟨e, he⟩) =>
          some (.copy length distance, ⟨e, Nat.le_trans he (Nat.le_trans (Nat.le_of_lt hd) hc)⟩)

def readItems (literals distances : Huffman) (out : ByteArray) (b : Bits) :
    Option (ByteArray × Bits) :=
  match literals.read? b with
  | none => none
  | some (s, ⟨c, _⟩) =>
    match readItem? distances s c with
    | none => none
    | some (.literal byte, ⟨d, _⟩) => readItems literals distances (out.push byte) d
    | some (.stop, ⟨d, _⟩) => some (out, d)
    | some (.copy length distance, ⟨d, _⟩) =>
      if out.size < distance then none
      else readItems literals distances (copyBack distance length out) d
termination_by b.left

/-- Reads the word lengths of a transmitted code, last one first, until there are `total`. -/
def readLengths (code : Huffman) (total : Nat) (read : List Nat) (b : Bits) :
    Option (List Nat × Bits) :=
  if total < read.length then none
  else if read.length = total then some (read, b)
  else
    match code.read? b with
    | none => none
    | some (s, ⟨c, _⟩) =>
      let run (value base extra : Nat) : Option (List Nat × { d : Bits // d.left ≤ c.left }) :=
        match c.number? extra with
        | none => none
        | some (n, d) => some (List.replicate (base + n) value ++ read, d)
      if s < 16 then readLengths code total (s :: read) c
      else
        let next :=
          if s = 16 then
            match read with
            | [] => none
            | last :: _ => run last 3 2
          else if s = 17 then run 0 3 3
          else run 0 11 7
        match next with
        | none => none
        | some (read, ⟨d, _⟩) => readLengths code total read d
termination_by b.left

def fixedLiterals? : Option Huffman :=
  Huffman.ofLengths? (List.replicate 144 8 ++ List.replicate 112 9 ++ List.replicate 24 7
    ++ List.replicate 8 8)

def fixedDistances? : Option Huffman := Huffman.ofLengths? (List.replicate 32 5)

def readCodeLengths : Nat → Bits → Option (List Nat × Bits)
  | 0, b => some ([], b)
  | n + 1, b =>
    match b.number? 3 with
    | none => none
    | some (v, c) =>
      match readCodeLengths n c with
      | none => none
      | some (vs, c) => some (v :: vs, c)

def readCodes (b : Bits) : Option (Huffman × Huffman × Bits) := do
  let (literals, b) ← b.number? 5
  let (distances, b) ← b.1.number? 5
  let (n, b) ← b.1.number? 4
  let (sent, b) ← readCodeLengths (n + 4) b
  let lengths := (List.range 19).map fun s => ((lengthOrder.zip sent).lookup s).getD 0
  let code ← Huffman.ofLengths? lengths
  let (all, b) ← readLengths code (literals + 257 + distances + 1) [] b
  let all := all.reverse
  let first ← Huffman.ofLengths? (all.take (literals + 257))
  let second ← Huffman.ofLengths? (all.drop (literals + 257))
  return (first, second, b)

/-- A block of stored bytes: their number, its complement and the bytes. -/
def readStored (out : ByteArray) (b : Bits) : Option (ByteArray × Bits) := do
  let (n, b) ← b.align.number? 16
  let (complement, b) ← b.1.number? 16
  if n + complement = 0xffff then
    let (bytes, b) ← b.1.takeBytes? n
    return (out ++ bytes, b)
  else none

def readBlock (kind : Nat) (out : ByteArray) (b : Bits) : Option (ByteArray × Bits) :=
  match kind with
  | 0 => readStored out b
  | 1 => do readItems (← fixedLiterals?) (← fixedDistances?) out b
  | 2 => do
    let (literals, distances, b) ← readCodes b
    readItems literals distances out b
  | _ => none

/-- Reads blocks up to the one marked as the last. Each begins with three bits, so `fuel` bits
left allow as many blocks. -/
def readBlocks : (fuel : Nat) → ByteArray → Bits → Option (ByteArray × Bits)
  | 0, _, _ => none
  | fuel + 1, out, b => do
    let (last, b) ← b.number? 1
    let (kind, b) ← b.1.number? 2
    let (out, b) ← readBlock kind out b.1
    if last = 1 then return (out, b) else readBlocks fuel out b

def inflate (b : Bits) : Option (ByteArray × Bits) := readBlocks (b.left + 1) .empty b

def adler32 (bytes : ByteArray) : Nat :=
  let (a, b) := bytes.foldl (fun (a, b) x => let a := (a + x.toNat) % 65521; (a, (b + a) % 65521))
    (1, 0)
  b * 65536 + a

/-- Reads a zlib stream; whatever follows it is left alone. -/
def unzlib? (bytes : ByteArray) : Option ByteArray := do
  let method ← bytes[0]?
  let flags ← bytes[1]?
  let header := method.toNat * 256 + flags.toNat
  if header % 31 = 0 ∧ method.toNat % 16 = 8 ∧ method.toNat / 16 ≤ 7 ∧ flags.toNat / 32 % 2 = 0 then
    let (out, b) ← inflate ⟨bytes, 16⟩
    let (sum, _) ← b.align.takeBytes? 4
    if sum.foldl (fun n x => n * 256 + x.toNat) 0 = adler32 out then some out else none
  else none

end MapLoader.Flate
