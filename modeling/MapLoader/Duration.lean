/-! Time spans for messages: one decimal place, in the largest unit that leaves a whole part. -/

namespace MapLoader

structure Duration where
  nanos : Nat
  deriving DecidableEq, Inhabited, Repr

def tenthsText (n : Nat) : String := s!"{n / 10}.{n % 10}"

/-- `nanos` in tenths of a unit, to the nearest, ties to even. -/
def tenths (nanos unit : Nat) : Nat :=
  let q := nanos * 10 / unit
  let twice := 2 * (nanos * 10 % unit)
  if twice < unit ∨ (twice = unit ∧ q % 2 = 0) then q else q + 1

def Duration.text (d : Duration) : String :=
  if 1000000000 ≤ d.nanos then tenthsText (tenths d.nanos 1000000000) ++ "s"
  else if 1000000 ≤ d.nanos then tenthsText (tenths d.nanos 1000000) ++ "ms"
  else if 1000 ≤ d.nanos then tenthsText (tenths d.nanos 1000) ++ "µs"
  else tenthsText (d.nanos * 10) ++ "ns"

end MapLoader
