/-! Reading bytes as UTF-8, with the place and length of the first sequence that is not. -/

namespace MapLoader.Text

/-- Where reading stopped: after `validUpTo` good bytes came a broken sequence of `length`
bytes, or the bytes ended inside a sequence. -/
structure Utf8Error where
  validUpTo : Nat
  length : Option Nat
  deriving DecidableEq, Repr

def Utf8Error.text (e : Utf8Error) : String :=
  match e.length with
  | some n => s!"invalid utf-8 sequence of {n} bytes from index {e.validUpTo}"
  | none => s!"incomplete utf-8 byte sequence from index {e.validUpTo}"

def isContinuation (b : UInt8) : Bool := 0x80 ≤ b && b ≤ 0xbf

/-- How many bytes a sequence with this first byte has, and the range of its second byte. -/
def leadOf (b : UInt8) : Option (Nat × UInt8 × UInt8) :=
  if b < 0x80 then some (1, 0, 0)
  else if b < 0xc2 then none
  else if b < 0xe0 then some (2, 0x80, 0xbf)
  else if b = 0xe0 then some (3, 0xa0, 0xbf)
  else if b = 0xed then some (3, 0x80, 0x9f)
  else if b < 0xf0 then some (3, 0x80, 0xbf)
  else if b = 0xf0 then some (4, 0x90, 0xbf)
  else if b < 0xf4 then some (4, 0x80, 0xbf)
  else if b = 0xf4 then some (4, 0x80, 0x8f)
  else none

def lowBits (b : UInt8) (n : Nat) : Nat := b.toNat % 1 <<< n

/-- Decodes from the byte at `start`, with the characters read so far in reverse. -/
def decodeFrom (start : Nat) (read : List Char) : List UInt8 → Except Utf8Error (List Char)
  | [] => .ok read.reverse
  | a :: rest =>
    match leadOf a with
    | none => .error ⟨start, some 1⟩
    | some (1, _, _) => decodeFrom (start + 1) (.ofNat a.toNat :: read) rest
    | some (n, low, high) =>
      match rest with
      | [] => .error ⟨start, none⟩
      | b :: rest =>
        if b < low || high < b then .error ⟨start, some 1⟩
        else if n = 2 then
          decodeFrom (start + 2) (.ofNat (lowBits a 5 * 64 + lowBits b 6) :: read) rest
        else
          match rest with
          | [] => .error ⟨start, none⟩
          | c :: rest =>
            if !isContinuation c then .error ⟨start, some 2⟩
            else if n = 3 then
              decodeFrom (start + 3)
                (.ofNat (lowBits a 4 * 4096 + lowBits b 6 * 64 + lowBits c 6) :: read) rest
            else
              match rest with
              | [] => .error ⟨start, none⟩
              | d :: rest =>
                if !isContinuation d then .error ⟨start, some 3⟩
                else
                  decodeFrom (start + 4)
                    (.ofNat (lowBits a 3 * 262144 + lowBits b 6 * 4096 + lowBits c 6 * 64
                      + lowBits d 6) :: read) rest

def decodeUtf8 (bytes : List UInt8) : Except Utf8Error String :=
  (decodeFrom 0 [] bytes).map .ofList

end MapLoader.Text
