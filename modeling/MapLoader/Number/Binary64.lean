/-! Double precision numbers by their bits. A finite number is an integer times a power of two;
every way to make one rounds an exact fraction to the nearest double, ties to even. -/

namespace MapLoader

structure Binary64 where
  bits : UInt64
  deriving DecidableEq, Inhabited, Repr

namespace Binary64

def ofBits (bits : UInt64) : Binary64 := ⟨bits⟩

def zero : Binary64 := ⟨0⟩

def isNegative (x : Binary64) : Bool := 0x8000000000000000 ≤ x.bits.toNat

def exponentField (x : Binary64) : Nat := x.bits.toNat >>> 52 % 2048

/-- The bit in front of the fifty-two fraction bits. -/
def hiddenBit : Nat := 1 <<< 52

def fractionField (x : Binary64) : Nat := x.bits.toNat % hiddenBit

def isFinite (x : Binary64) : Bool := x.exponentField < 2047

def isNaN (x : Binary64) : Bool := !x.isFinite && 0 < x.fractionField

/-- The significand of a finite number, with the hidden bit of a normal one. -/
def significand (x : Binary64) : Nat :=
  if x.exponentField = 0 then x.fractionField else hiddenBit + x.fractionField

/-- A finite number has the magnitude `significand * 2 ^ scale`. -/
def scale (x : Binary64) : Int := (max x.exponentField 1 : Nat) - 1075

def magnitude (x : Binary64) : Nat × Nat :=
  (x.significand <<< x.scale.toNat, 1 <<< (-x.scale).toNat)

/-- The integer nearest to `num / den`, ties to even. -/
def roundDiv (num den : Nat) : Nat :=
  let q := num / den
  let twice := 2 * (num % den)
  if twice < den ∨ (twice = den ∧ q % 2 = 0) then q else q + 1

/-- The double nearest to `± num / den`; the denominator is positive. -/
def ofRatio (negative : Bool) (num den : Nat) : Binary64 :=
  let sign : Nat := if negative then 0x8000000000000000 else 0
  if num = 0 then ⟨.ofNat sign⟩ else
    -- the quotient lies in [2 ^ low, 2 ^ (low + 2)), so its unit is one of two powers of two
    let low : Int := (num.log2 : Int) - den.log2 - 1
    let unitOf (e : Int) : Int := max (e - 52) (-1074)
    let quotient (unit : Int) : Nat := roundDiv (num <<< (-unit).toNat) (den <<< unit.toNat)
    let reaches : Bool :=
      den <<< (low + 1).toNat ≤ num <<< (-(low + 1)).toNat
    let unit := unitOf (if reaches then low + 1 else low)
    let m := quotient unit
    -- adding the significand to the exponent field carries a full one into the next binade
    let field : Nat := (unit + 1074).toNat * hiddenBit + m
    ⟨.ofNat (sign + min field (2047 * hiddenBit))⟩

def ofInt (n : Int) : Binary64 := ofRatio (n < 0) n.natAbs 1

def ofDecimal (negative : Bool) (m : Nat) (e : Int) : Binary64 :=
  ofRatio negative (m * Nat.pow 10 e.toNat) (Nat.pow 10 (-e).toNat)

def mul (x y : Binary64) : Binary64 :=
  let (a, b) := x.magnitude
  let (c, d) := y.magnitude
  ofRatio (x.isNegative != y.isNegative) (a * c) (b * d)

/-- A whole number of 64 bits, when the double is one. -/
def toInt? (x : Binary64) : Option Int :=
  if x.isFinite then
    let (num, den) := x.magnitude
    if num % den = 0 then some (if x.isNegative then -(num / den : Nat) else (num / den : Nat))
    else none
  else none

end Binary64

end MapLoader
