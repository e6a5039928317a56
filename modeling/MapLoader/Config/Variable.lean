import MapLoader.Config.Toml.Text
import MapLoader.Config.Setting
import MapLoader.Number.Numeral
import MapLoader.Number.Width
import MapLoader.Text.Blank

/-! The values of environment variables. A value may be a number, a truth value, a quoted text, a
list in brackets or a table in braces; what is none of these is a text as it stands. -/

namespace MapLoader.Variable

def isSpace (c : Char) : Bool := c = ' ' || c = '\t' || c = '\n' || c = '\x0c' || c = '\r'

def isSeparator (c : Char) : Bool :=
  c = ',' || c = '\x7b' || c = '\x7d' || c = '[' || c = ']'

def isNameChar (c : Char) : Bool := c.isAlphanum || c = '_' || c = '-'

def skipSpace (cs : List Char) : List Char := cs.dropWhile isSpace

def digits? (cs : List Char) : Option Nat := if cs.isEmpty then none else Toml.numberOf? 10 cs

def wholeNumber? : List Char → Option Int
  | '-' :: cs =>
    match digits? cs with
    | some n => if minInt64 ≤ -n then some (-n) else none
    | none => none
  | '+' :: cs | cs =>
    match digits? cs with
    | some n => if n ≤ maxUInt64 then some n else none
    | none => none

/-- The setting that a word stands for, white space around it apart. -/
def ofWord (cs : List Char) : Setting :=
  let word := Text.trim (.ofList cs)
  if '.' ∈ word.toList ∧ (Numeral.ofText? word).isSome then .decimal
  else
    match wholeNumber? word.toList with
    | some n => .whole n
    | none => .text word

abbrev Reader (α : Type) := List Char → Option (α × List Char)

def readText (cs : List Char) : Option (String × List Char) := Toml.readQuoted ⟨'"', true, false⟩ cs

def readName : Reader String
  | '"' :: cs => readText cs
  | cs =>
    let name := cs.takeWhile isNameChar
    if name.isEmpty then none else some (.ofList name, cs.dropWhile isNameChar)

def readPair (readValue : Reader Setting) (cs : List Char) :
    Option ((String × Setting) × List Char) := do
  let (name, rest) ← readName (skipSpace cs)
  match skipSpace rest with
  | '=' :: rest =>
    let (value, rest) ← readValue rest
    return ((name, value), rest)
  | _ => none

def readItems {α : Type} (closing : Char) (readItem : Reader α) : (fuel : Nat) → Reader (List α)
  | 0, _ => none
  | fuel + 1, cs =>
    match cs with
    | [] => none
    | c :: rest =>
      if c = closing then some ([], rest)
      else do
        let (item, rest) ← readItem (c :: rest)
        match rest with
        | ',' :: rest =>
          let (items, rest) ← readItems closing readItem fuel rest
          return (item :: items, rest)
        | c :: rest => if c = closing then return ([item], rest) else none
        | [] => none

/-- Reads a value in which brackets nest at most `depth` deep. -/
def readValue : (depth : Nat) → Reader Setting
  | 0, _ => none
  | depth + 1, cs => do
    let (value, rest) ←
      match skipSpace cs with
      | 't' :: 'r' :: 'u' :: 'e' :: rest => some (.flag true, rest)
      | 'f' :: 'a' :: 'l' :: 's' :: 'e' :: rest => some (.flag false, rest)
      | '[' :: rest =>
        (readItems ']' (readValue depth) (rest.length + 1) rest).map fun (items, rest) =>
          (.list items, rest)
      | '\x7b' :: rest =>
        (readItems '\x7d' (readPair (readValue depth)) (rest.length + 1) rest).map
          fun (pairs, rest) => (.table pairs, rest)
      | '"' :: rest => (readText rest).map fun (s, rest) => (.text s, rest)
      | '\x27' :: c :: '\x27' :: rest => some (.text (.singleton c), rest)
      | '\x27' :: _ => none
      | rest =>
        let word := rest.takeWhile fun c => !isSeparator c
        some (ofWord word, rest.drop word.length)
    return (value, skipSpace rest)

def read (s : String) : Setting :=
  match readValue (s.length + 1) s.toList with
  | some (value, []) => value
  | _ => .text s

example : read "[node, way]" matches .list [.text _, .text _] := by decide

example : read "007" matches .whole 7 := by decide

end MapLoader.Variable
