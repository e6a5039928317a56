/-! Strings of a TOML document, on one line or on several, with escapes or without. -/

namespace MapLoader.Toml

/-- Tabs and whatever is no control character stand for themselves. -/
def isPlain (c : Char) : Bool := c = '\t' || (0x20 ≤ c.toNat && c.toNat != 0x7f)

def isBlank (c : Char) : Bool := c = ' ' || c = '\t'

def digitValue? (base : Nat) (c : Char) : Option Nat :=
  let v :=
    if '0' ≤ c ∧ c ≤ '9' then c.toNat - '0'.toNat
    else if 'a' ≤ c ∧ c ≤ 'f' then c.toNat - 'a'.toNat + 10
    else if 'A' ≤ c ∧ c ≤ 'F' then c.toNat - 'A'.toNat + 10
    else base
  if v < base then some v else none

def numberOf? (base : Nat) (ds : List Char) : Option Nat :=
  ds.foldlM (fun n c => (digitValue? base c).map (n * base + ·)) 0

def readCodePoint (n : Nat) (cs : List Char) : Option (Char × List Char) :=
  let ds := cs.take n
  if ds.length < n then none
  else
    match numberOf? 16 ds with
    | some v => if v.isValidChar then some (.ofNat v, cs.drop n) else none
    | none => none

def readEscape : List Char → Option (Char × List Char)
  | 'b' :: cs => some ('\x08', cs)
  | 't' :: cs => some ('\t', cs)
  | 'n' :: cs => some ('\n', cs)
  | 'f' :: cs => some ('\x0c', cs)
  | 'r' :: cs => some ('\r', cs)
  | '"' :: cs => some ('"', cs)
  | '\\' :: cs => some ('\\', cs)
  | 'u' :: cs => readCodePoint 4 cs
  | 'U' :: cs => readCodePoint 8 cs
  | _ => none

/-- Blanks up to the end of a line are dropped with the line end and all blanks and line ends
after it. -/
def skipLineEnd? (cs : List Char) : Option (List Char) :=
  match cs.dropWhile isBlank with
  | '\n' :: rest => some (rest.dropWhile fun c => isBlank c || c = '\n')
  | _ => none

structure Quoting where
  quote : Char
  escapes : Bool
  lines : Bool
  deriving DecidableEq, Repr

/-- After the closing quotes of a string of several lines up to two more belong to it. -/
def closeLines (quote : Char) : List Char → List Char × List Char
  | a :: b :: rest =>
    if a = quote then
      if b = quote then ([quote, quote], rest) else ([quote], b :: rest)
    else ([], a :: b :: rest)
  | [a] => if a = quote then ([quote], []) else ([], [a])
  | [] => ([], [])

def close? (q : Quoting) (cs : List Char) : Option (List Char × List Char) :=
  if q.lines then
    match cs with
    | a :: b :: c :: rest =>
      if a = q.quote ∧ b = q.quote ∧ c = q.quote then some (closeLines q.quote rest) else none
    | _ => none
  else
    match cs with
    | a :: rest => if a = q.quote then some ([], rest) else none
    | [] => none

def readPiece (q : Quoting) : List Char → Option (List Char × List Char)
  | [] => none
  | c :: cs =>
    if c = '\\' ∧ q.escapes then
      match if q.lines then skipLineEnd? cs else none with
      | some rest => some ([], rest)
      | none => (readEscape cs).map fun (d, rest) => ([d], rest)
    else if isPlain c ∨ (q.lines ∧ c = '\n') then some ([c], cs)
    else none

/-- Reads a string to its end. Every piece takes a character, so as many pieces as there are
characters suffice. -/
def readPieces (q : Quoting) : (fuel : Nat) → List Char → Option (List Char × List Char)
  | 0, _ => none
  | fuel + 1, cs =>
    match close? q cs with
    | some (ending, rest) => some (ending, rest)
    | none =>
      match readPiece q cs with
      | none => none
      | some (piece, rest) =>
        (readPieces q fuel rest).map fun (more, rest) => (piece ++ more, rest)

def readQuoted (q : Quoting) (cs : List Char) : Option (String × List Char) :=
  (readPieces q (cs.length + 1) cs).map fun (s, rest) => (.ofList s, rest)

def readString : List Char → Option (String × List Char)
  | '"' :: cs => readQuoted ⟨'"', true, false⟩ cs
  | '\x27' :: cs => readQuoted ⟨'\x27', false, false⟩ cs
  | _ => none

/-- A line end right after the opening quotes does not count. -/
def dropLineEnd : List Char → List Char
  | '\n' :: cs => cs
  | cs => cs

/-- A string of either kind. Three quotes open one of several lines. -/
def readText : List Char → Option (String × List Char)
  | '"' :: '"' :: '"' :: cs => readQuoted ⟨'"', true, true⟩ (dropLineEnd cs)
  | '\x27' :: '\x27' :: '\x27' :: cs => readQuoted ⟨'\x27', false, true⟩ (dropLineEnd cs)
  | cs => readString cs

end MapLoader.Toml
