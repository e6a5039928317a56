import MapLoader.Number.Binary64

/-! The shortest decimal text of a double: the fewest digits that read back as the same number,
of those the nearest, and on an exact tie the larger. It is always written in full, without an
exponent. -/

namespace MapLoader.Binary64

structure Decimal where
  digits : Nat
  exponent : Int
  deriving DecidableEq, Repr

/-- Twice the distance from the magnitude down and up to the neighbouring doubles, in units of
a quarter of `2 ^ scale`: half of each is where the rounding interval ends. -/
def gaps (x : Binary64) : Nat × Nat :=
  if x.fractionField = 0 ∧ 1 < x.exponentField then (1, 2) else (2, 2)

/-- Whether the decimal `d * 10 ^ e` rounds to `x`: both ends of the interval belong to it
when the significand is even. -/
def reads (x : Binary64) (d : Nat) (e : Int) : Bool :=
  let (below, above) := x.gaps
  -- everything is compared in quarters of `2 ^ scale`
  let value := (d * Nat.pow 10 e.toNat) <<< (2 - x.scale).toNat
  let unit := Nat.pow 10 (-e).toNat <<< (x.scale - 2).toNat
  let low := (4 * x.significand - below) * unit
  let high := (4 * x.significand + above) * unit
  if x.significand % 2 = 0 then low ≤ value && value ≤ high else low < value && value < high

/-- The decimal with exponent `e` that reads back as `x` and is nearest to it. -/
def onGrid? (x : Binary64) (e : Int) : Option Decimal :=
  let (num, den) := x.magnitude
  let n := num * Nat.pow 10 (-e).toNat
  let d := den * Nat.pow 10 e.toNat
  let floor := n / d
  match x.reads floor e, x.reads (floor + 1) e with
  | true, true => some ⟨if 2 * (n % d) < d then floor else floor + 1, e⟩
  | true, false => some ⟨floor, e⟩
  | false, true => some ⟨floor + 1, e⟩
  | false, false => none

def digitCount (n : Nat) : Nat := (Nat.toDigits 10 n).length

/-- The position of the first decimal digit: the magnitude is below `10 ^ top`, and not below
`10 ^ (top - 1)`. -/
def top (x : Binary64) : Int :=
  let (num, den) := x.magnitude
  if den ≤ num then digitCount (num / den) else
    -- `num / den < 1`: count the zeros that follow the point
    let k := digitCount (den / num)
    if den ≤ num * Nat.pow 10 (k - 1) then 2 - (k : Int) else 1 - (k : Int)

/-- Tries one digit, then two, up to the seventeen that always suffice. -/
def shortest (x : Binary64) : Decimal :=
  let found := (List.range 17).findSome? fun (n : Nat) => x.onGrid? (x.top - 1 - n)
  found.getD ⟨x.significand, x.scale⟩

def Decimal.text (d : Decimal) : String :=
  let ds := Nat.toDigits 10 d.digits
  if 0 ≤ d.exponent then
    .ofList (ds ++ List.replicate d.exponent.toNat '0')
  else
    let k := (-d.exponent).toNat
    let padded := List.replicate (k + 1 - ds.length) '0' ++ ds
    let whole := padded.take (padded.length - k)
    let part := padded.drop (padded.length - k)
    let kept := (part.reverse.dropWhile (· == '0')).reverse
    if kept.isEmpty then .ofList whole else .ofList (whole ++ '.' :: kept)

def text (x : Binary64) : String :=
  if x.isNaN then "NaN" else
    let sign := if x.isNegative then "-" else ""
    if !x.isFinite then sign ++ "inf"
    else if x.significand = 0 then sign ++ "0"
    else sign ++ x.shortest.text

end MapLoader.Binary64
