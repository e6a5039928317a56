import MapLoader.Number.Numeral
import MapLoader.Number.Width
import MapLoader.Row

/-! Values as a database keeps them. A column may prefer whole numbers or text; a value that can
be read the way its column prefers is kept that way, and any other as it came. -/

namespace MapLoader

inductive Cell
  | null
  | integer (n : Int)
  | real (x : Binary64)
  | text (s : String)
  deriving DecidableEq, Inhabited, Repr

/-- A value as it is bound: points become text. -/
def Value.cell : Value → Cell
  | null => .null
  | integer n => .integer n
  | text s => .text s
  | point p => .text p.ewkt

inductive Affinity
  | any | integer | text
  deriving DecidableEq, Inhabited, Repr

/-- The number that a numeral stands for, as a whole number when it is one. A number that needs a
double is rounded to the nearest. The database library does the same for numerals of few digits;
of a long one it drops digits after the nineteenth, and what it keeps may differ from this in the
last place. -/
def Numeral.cell (n : Numeral) : Cell :=
  let exact : Int := if n.negative then -(n.digits : Int) else n.digits
  if n.whole && fitsInt64 exact then .integer exact
  else
    match n.value.toInt? with
    | some i => if minInt64 < i ∧ i < maxInt64 then .integer i else .real n.value
    | none => .real n.value

def Affinity.apply : Affinity → Cell → Cell
  | text, .integer n => .text (toString n)
  | integer, .text s =>
    match Numeral.ofText? s with
    | some n => n.cell
    | none => .text s
  | _, c => c

end MapLoader
