import MapLoader.Config.Setting
import MapLoader.Number.Width
import MapLoader.Config.Toml.Text

/-! Numbers, truth values, dates and times of a TOML document. Each is one word; only a date and
the time after it may be apart by a space. -/

namespace MapLoader.Toml

def isWordChar (c : Char) : Bool :=
  c.isAlphanum || c = '+' || c = '-' || c = '_' || c = '.' || c = ':'

/-- Takes out underscores, each of which has to stand between two digits. -/
def joinDigits? (base : Nat) : List Char → Option (List Char)
  | [] => none
  | [c] => if (digitValue? base c).isSome then some [c] else none
  | c :: d :: rest =>
    if (digitValue? base c).isNone then none
    else if d = '_' then (joinDigits? base rest).map (c :: ·)
    else (joinDigits? base (d :: rest)).map (c :: ·)

def splitSign : List Char → Bool × List Char
  | '-' :: cs => (true, cs)
  | '+' :: cs => (false, cs)
  | cs => (false, cs)

/-- Decimal digits without a zero in front of others. -/
def decimal? (cs : List Char) : Option Nat :=
  match joinDigits? 10 cs with
  | some ('0' :: _ :: _) | none => none
  | some ds => numberOf? 10 ds

def inBase? (base : Nat) (cs : List Char) : Option Nat :=
  (joinDigits? base cs).bind (numberOf? base)

/-- A whole number, in decimal with or without a sign, or in another base without one. -/
def wholeNumber? : List Char → Option Int
  | '0' :: 'x' :: cs => (inBase? 16 cs).map Int.ofNat
  | '0' :: 'o' :: cs => (inBase? 8 cs).map Int.ofNat
  | '0' :: 'b' :: cs => (inBase? 2 cs).map Int.ofNat
  | cs =>
    let (negative, cs) := splitSign cs
    (decimal? cs).map fun n => if negative then -(n : Int) else n

def isExponent (cs : List Char) : Bool :=
  (joinDigits? 10 (splitSign cs).2).isSome

/-- Digits after the point, and perhaps an exponent. -/
def isFraction (cs : List Char) : Bool :=
  let digits := cs.takeWhile fun c => c ≠ 'e' && c ≠ 'E'
  (joinDigits? 10 digits).isSome &&
    match cs.dropWhile fun c => c ≠ 'e' && c ≠ 'E' with
    | [] => true
    | _ :: rest => isExponent rest

def isDecimalNumber (cs : List Char) : Bool :=
  let cs := (splitSign cs).2
  let stops (c : Char) : Bool := c = '.' || c = 'e' || c = 'E'
  cs = ['i', 'n', 'f'] || cs = ['n', 'a', 'n'] ||
    ((decimal? (cs.takeWhile fun c => !stops c)).isSome &&
      match cs.dropWhile fun c => !stops c with
      | [] => false
      | c :: rest => if c = '.' then isFraction rest else isExponent rest)

def digits? (cs : List Char) : Option Nat := if cs.isEmpty then none else numberOf? 10 cs

def isLeap (year : Nat) : Bool := year % 4 = 0 && (year % 100 ≠ 0 || year % 400 = 0)

def daysIn (year month : Nat) : Nat :=
  if month = 2 then if isLeap year then 29 else 28
  else if month ∈ [4, 6, 9, 11] then 30
  else 31

def isDate : List Char → Bool
  | [y₁, y₂, y₃, y₄, '-', m₁, m₂, '-', d₁, d₂] =>
    match digits? [y₁, y₂, y₃, y₄], digits? [m₁, m₂], digits? [d₁, d₂] with
    | some y, some m, some d => 1 ≤ m && m ≤ 12 && 1 ≤ d && d ≤ daysIn y m
    | _, _, _ => false
  | _ => false

def isHourMinute (h₁ h₂ m₁ m₂ : Char) : Bool :=
  match digits? [h₁, h₂], digits? [m₁, m₂] with
  | some h, some m => h ≤ 23 && m ≤ 59
  | _, _ => false

def isSecondFraction : List Char → Bool
  | [] => true
  | '.' :: ds => (digits? ds).isSome
  | _ => false

/-- Hours, minutes, seconds and perhaps a fraction. A minute may have a leap second. -/
def isTime : List Char → Bool
  | h₁ :: h₂ :: ':' :: m₁ :: m₂ :: ':' :: s₁ :: s₂ :: rest =>
    isHourMinute h₁ h₂ m₁ m₂ && isSecondFraction rest &&
      match digits? [s₁, s₂] with
      | some s => s ≤ 60
      | none => false
  | _ => false

def isOffset : List Char → Bool
  | ['z'] | ['Z'] => true
  | [sign, h₁, h₂, ':', m₁, m₂] => (sign = '+' || sign = '-') && isHourMinute h₁ h₂ m₁ m₂
  | _ => false

def isTimeWithOffset (cs : List Char) : Bool :=
  let timeChar (c : Char) : Bool := c.isDigit || c = ':' || c = '.'
  let offset := cs.dropWhile timeChar
  isTime (cs.takeWhile timeChar) && (offset.isEmpty || isOffset offset)

def isMoment (cs : List Char) : Bool :=
  isTime cs || isDate cs ||
    (isDate (cs.take 10) &&
      match cs.drop 10 with
      | c :: rest => (c = 'T' || c = 't' || c = ' ') && isTimeWithOffset rest
      | [] => false)

def ofWord? (cs : List Char) : Option Setting :=
  if cs = ['t', 'r', 'u', 'e'] then some (.flag true)
  else if cs = ['f', 'a', 'l', 's', 'e'] then some (.flag false)
  else
    match wholeNumber? cs with
    | some n => if fitsInt64 n then some (.whole n) else none
    | none =>
      if isDecimalNumber cs then some .decimal
      else if isMoment cs then some .moment
      else none

/-- Cuts off a word. A space after a date belongs to it if a digit follows. -/
def cutWord (cs : List Char) : List Char × List Char :=
  let word := cs.takeWhile isWordChar
  match cs.dropWhile isWordChar with
  | ' ' :: c :: rest =>
    if isDate word ∧ c.isDigit then
      (word ++ ' ' :: (c :: rest).takeWhile isWordChar, (c :: rest).dropWhile isWordChar)
    else (word, ' ' :: c :: rest)
  | rest => (word, rest)

def readScalar (cs : List Char) : Option (Setting × List Char) :=
  let (word, rest) := cutWord cs
  (ofWord? word).map fun s => (s, rest)

example : ofWord? "1_000".toList matches some (.whole 1000) := by decide

example : ofWord? "01".toList matches none := by decide

example : ofWord? "6.5e-3".toList matches some .decimal := by decide

example : ofWord? "1979-05-27T07:32:00.5-07:00".toList matches some .moment := by decide

example : ofWord? "1979-02-29".toList matches none := by decide

end MapLoader.Toml
