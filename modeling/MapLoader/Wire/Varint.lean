import MapLoader.Number.Width

/-! Whole numbers in groups of seven bits, the lowest group first. Every byte but the last has
its high bit set. -/

namespace MapLoader.Wire

/-- What is left after at least one byte was read. -/
abbrev Shorter (bs : List UInt8) := { rest : List UInt8 // rest.length < bs.length }

abbrev Remainder (bs : List UInt8) := { rest : List UInt8 // rest.length ≤ bs.length }

structure Varint where
  value : Nat
  size : Nat
  deriving DecidableEq, Repr

/-- Reads the groups from the one of weight `2 ^ (7 * i)` on. The tenth group holds the one bit that
is left of 64. -/
def readGroups : (i : Nat) → (bs : List UInt8) → Option (Varint × Shorter bs)
  | _, [] => none
  | i, b :: rest =>
    let low := b.toNat % 128
    if 9 ≤ i ∧ 1 < b.toNat then none
    else if b.toNat < 128 then some (⟨low <<< (7 * i), i + 1⟩, ⟨rest, by simp⟩)
    else
      match readGroups (i + 1) rest with
      | none => none
      | some (high, ⟨rest', h⟩) =>
        some ({ high with value := low <<< (7 * i) + high.value }, ⟨rest', Nat.lt_succ_of_lt h⟩)

def readVarint (bs : List UInt8) : Option (Varint × Shorter bs) := readGroups 0 bs

def readVarint32 (bs : List UInt8) : Option (Varint × Shorter bs) :=
  match readVarint bs with
  | none => none
  | some (v, rest) => if v.value ≤ maxUInt32 then some (v, rest) else none

/-- The signed number that the 64 bits of `n` stand for. -/
def signed64 (n : Nat) : Int64 := .ofNat n

/-- Even numbers stand for themselves halved, odd ones for the negative numbers. -/
def unzigzag (n : Nat) : Int := if n % 2 = 0 then (n / 2 : Nat) else -((n + 1) / 2 : Nat)

def signed32? (n : Nat) : Option Int32 :=
  let i := (signed64 n).toInt
  if fitsInt32 i then some (.ofInt i) else none

def unsigned32? (n : Nat) : Option UInt32 := if n ≤ maxUInt32 then some (.ofNat n) else none

end MapLoader.Wire
