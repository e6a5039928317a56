import MapLoader.Number.Binary64

/-! Numbers as text: digits with perhaps a sign, a point and an exponent. -/

namespace MapLoader

structure Numeral where
  negative : Bool
  digits : Nat
  exponent : Int
  /-- Written without a point and without an exponent. -/
  whole : Bool
  deriving DecidableEq, Repr

namespace Numeral

def isSpace (c : Char) : Bool := c = ' ' || ('\t' ≤ c && c ≤ '\r')

def readDigits (cs : List Char) : List Char × List Char :=
  (cs.takeWhile Char.isDigit, cs.dropWhile Char.isDigit)

def readSign : List Char → Bool × List Char
  | '-' :: cs => (true, cs)
  | '+' :: cs => (false, cs)
  | cs => (false, cs)

def numberOf (ds : List Char) : Nat := ds.foldl (fun n c => n * 10 + (c.toNat - '0'.toNat)) 0

def readExponent : List Char → Option (Option Int × List Char)
  | c :: cs =>
    if c = 'e' ∨ c = 'E' then
      let (negative, cs) := readSign cs
      let (ds, cs) := readDigits cs
      if ds.isEmpty then none
      else some (some (if negative then -(numberOf ds : Int) else numberOf ds), cs)
    else some (none, c :: cs)
  | [] => some (none, [])

/-- A text that is a numeral and nothing else, white space around it apart. -/
def ofText? (s : String) : Option Numeral :=
  let (negative, cs) := readSign (s.toList.dropWhile isSpace)
  let (front, cs) := readDigits cs
  let (point, back, cs) := match cs with
    | '.' :: cs => let (ds, cs) := readDigits cs; (true, ds, cs)
    | cs => (false, [], cs)
  if front.isEmpty && back.isEmpty then none
  else
    match readExponent cs with
    | none => none
    | some (e, cs) =>
      if cs.all isSpace then
        some ⟨negative, numberOf (front ++ back), e.getD 0 - back.length, !point && e.isNone⟩
      else none

def value (n : Numeral) : Binary64 := .ofDecimal n.negative n.digits n.exponent

end Numeral

end MapLoader
