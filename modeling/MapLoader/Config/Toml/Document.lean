import MapLoader.Config.Toml.Scalar
import MapLoader.Config.Toml.Tree

/-! Reading a TOML document: headers of tables, and keys with values under them. -/

namespace MapLoader.Toml

def skipBlanks (cs : List Char) : List Char := cs.dropWhile isBlank

def skipComment? : List Char → Option (List Char)
  | '#' :: cs =>
    match cs.dropWhile isPlain with
    | [] => some []
    | '\n' :: rest => some ('\n' :: rest)
    | _ => none
  | cs => some cs

/-- Ends a line: blanks, perhaps a comment, and the line end unless the document ends. -/
def endLine? (cs : List Char) : Option (List Char) :=
  match skipComment? (skipBlanks cs) with
  | some [] => some []
  | some ('\n' :: rest) => some rest
  | _ => none

/-- Drops blanks, line ends and comments. Each round drops a line. -/
def skipLines : (fuel : Nat) → List Char → Option (List Char)
  | 0, cs => some cs
  | fuel + 1, cs =>
    match skipComment? (skipBlanks cs) with
    | some ('\n' :: rest) => skipLines fuel rest
    | other => other

def skipSpace (cs : List Char) : Option (List Char) := skipLines (cs.length + 1) cs

def isBareKeyChar (c : Char) : Bool := c.isAlphanum || c = '_' || c = '-'

def readKey (cs : List Char) : Option (String × List Char) :=
  match cs with
  | '"' :: _ | '\x27' :: _ => readString cs
  | _ =>
    let key := cs.takeWhile isBareKeyChar
    if key.isEmpty then none else some (.ofList key, cs.dropWhile isBareKeyChar)

/-- Keys with points between them. Every key takes a character. -/
def readKeys : (fuel : Nat) → List Char → Option (List String × List Char)
  | 0, _ => none
  | fuel + 1, cs => do
    let (key, rest) ← readKey (skipBlanks cs)
    match skipBlanks rest with
    | '.' :: rest =>
      let (keys, rest) ← readKeys fuel rest
      return (key :: keys, rest)
    | rest => return ([key], rest)

structure DottedKey where
  path : List String
  key : String
  deriving DecidableEq, Repr

def readDottedKey (cs : List Char) : Option (DottedKey × List Char) :=
  match readKeys (cs.length + 1) cs with
  | none => none
  | some (keys, rest) => keys.getLast?.map fun key => (⟨keys.dropLast, key⟩, rest)

abbrev Reader (α : Type) := List Char → Option (α × List Char)

/-- The values of an array up to its end. A comma may follow the last one. -/
def readItems (readValue : Reader Setting) : (fuel : Nat) → Reader (List Setting)
  | 0, _ => none
  | fuel + 1, cs => do
    match ← skipSpace cs with
    | ']' :: rest => return ([], rest)
    | cs =>
      let (item, rest) ← readValue cs
      match ← skipSpace rest with
      | ',' :: rest =>
        let (items, rest) ← readItems readValue fuel rest
        return (item :: items, rest)
      | ']' :: rest => return ([item], rest)
      | _ => none

def readPair (readValue : Reader Setting) (cs : List Char) :
    Option ((DottedKey × Setting) × List Char) := do
  let (key, rest) ← readDottedKey cs
  match rest with
  | '=' :: rest =>
    let (value, rest) ← readValue (skipBlanks rest)
    return ((key, value), rest)
  | _ => none

/-- The pairs of a table on one line. No comma follows the last one. -/
def readPairs (readValue : Reader Setting) : (fuel : Nat) → Entries → Reader Entries
  | 0, _, _ => none
  | fuel + 1, es, cs => do
    let ((key, value), rest) ← readPair readValue cs
    let es ← assign true key.path key.key value es
    match skipBlanks rest with
    | ',' :: rest => readPairs readValue fuel es rest
    | '\x7d' :: rest => return (es, rest)
    | _ => none

/-- Reads a value in which arrays and tables nest less deep than `depth`. -/
def readValue : (depth : Nat) → Reader Setting
  | _, '"' :: cs => (readText ('"' :: cs)).map fun (s, rest) => (.text s, rest)
  | _, '\x27' :: cs => (readText ('\x27' :: cs)).map fun (s, rest) => (.text s, rest)
  | 0, '[' :: _ => none
  | depth + 1, '[' :: cs =>
    (readItems (readValue depth) (cs.length + 1) cs).map fun (items, rest) => (.list items, rest)
  | 0, '\x7b' :: _ => none
  | depth + 1, '\x7b' :: cs =>
    match skipBlanks cs with
    | '\x7d' :: rest => some (.table [], rest)
    | cs =>
      (readPairs (readValue depth) (cs.length + 1) [] cs).map fun (es, rest) =>
        (.table (settings es), rest)
  | _, cs => readScalar cs

def depthLimit : Nat := 79

def readHeader (cs : List Char) : Option ((Bool × DottedKey) × List Char) :=
  match cs with
  | '[' :: cs => do
    let (key, rest) ← readDottedKey cs
    match rest with
    | ']' :: ']' :: rest => return ((true, key), rest)
    | _ => none
  | cs => do
    let (key, rest) ← readDottedKey cs
    match rest with
    | ']' :: rest => return ((false, key), rest)
    | _ => none

/-- Reads line by line. `current` are the keys of the table that pairs go to. -/
def readLines : (fuel : Nat) → (current : List String) → Entries → List Char → Option Entries
  | 0, _, _, _ => none
  | fuel + 1, current, es, cs => do
    match ← skipSpace cs with
    | [] => return es
    | '[' :: cs =>
      let ((isArray, key), rest) ← readHeader cs
      let es ← below key.path (if isArray then openTables key.key else openTable key.key) es
      readLines fuel (key.path ++ [key.key]) es (← endLine? rest)
    | cs =>
      let ((key, value), rest) ← readPair (readValue depthLimit) cs
      let es ← below current (assign true key.path key.key value) es
      readLines fuel current es (← endLine? rest)

/-- Line ends are single characters from here on. -/
def joinLineEnds : List Char → List Char
  | '\r' :: '\n' :: cs => '\n' :: joinLineEnds cs
  | c :: cs => c :: joinLineEnds cs
  | [] => []

def dropByteOrderMark : List Char → List Char
  | '\ufeff' :: cs => cs
  | cs => cs

def read? (s : String) : Option Section :=
  let cs := joinLineEnds (dropByteOrderMark s.toList)
  (readLines (cs.length + 1) [] [] cs).map settings

end MapLoader.Toml
