import MapLoader.Text.Json

/-! The grammar of JSON as RFC 8259 gives it. A relation holds between a text, what a first part
of it stands for, and the text that follows this part. White space is a parameter: with the
characters that the format allows between tokens the relations describe every JSON text, and with
none of them the compact ones. -/

namespace MapLoader.Json

/-- What a JSON text can stand for. Members keep the order in which they are written, and a
number is kept as it is written. -/
inductive Value
  | null
  | bool (b : Bool)
  | number (digits : List Char)
  | string (s : String)
  | array (items : List Value)
  | object (members : List (String × Value))

def IsBlank (c : Char) : Prop := c = ' ' ∨ c = '\t' ∨ c = '\n' ∨ c = '\r'

def IsDigit (c : Char) : Prop := '0' ≤ c ∧ c ≤ '9'

/-- Digits of which the first is not zero, or a zero alone. -/
inductive Whole : List Char → Prop
  | zero : Whole ['0']
  | digits {d : Char} {ds : List Char} : '1' ≤ d → d ≤ '9' → (∀ c ∈ ds, IsDigit c) →
      Whole (d :: ds)

inductive Fraction : List Char → Prop
  | none : Fraction []
  | digits {ds : List Char} : ds ≠ [] → (∀ c ∈ ds, IsDigit c) → Fraction ('.' :: ds)

inductive Exponent : List Char → Prop
  | none : Exponent []
  | digits {e : Char} {sign ds : List Char} : e = 'e' ∨ e = 'E' →
      sign = [] ∨ sign = ['-'] ∨ sign = ['+'] → ds ≠ [] → (∀ c ∈ ds, IsDigit c) →
      Exponent (e :: sign ++ ds)

inductive Numeral : List Char → Prop
  | mk {minus whole fraction exponent : List Char} : minus = [] ∨ minus = ['-'] → Whole whole →
      Fraction fraction → Exponent exponent → Numeral (minus ++ whole ++ fraction ++ exponent)

/-- The characters that are escaped with one character after the backslash. -/
def shortEscapes : List (Char × Char) :=
  [('"', '"'), ('\\', '\\'), ('/', '/'), ('b', '\x08'), ('f', '\x0c'), ('n', '\n'), ('r', '\r'),
    ('t', '\t')]

/-- The rest of a string, up to the quote that ends it. Half of a surrogate pair stands for no
character, so a string with such a half is not read. -/
inductive Spells : List Char → List Char → List Char → Prop
  | close {rest : List Char} : Spells ('"' :: rest) [] rest
  | plain {c : Char} {cs s rest : List Char} : 0x20 ≤ c.toNat → c ≠ '"' → c ≠ '\\' →
      Spells cs s rest → Spells (c :: cs) (c :: s) rest
  | short {e c : Char} {cs s rest : List Char} : (e, c) ∈ shortEscapes → Spells cs s rest →
      Spells ('\\' :: e :: cs) (c :: s) rest
  | unit {a b c d : Char} {n : Nat} {cs s rest : List Char} : unit? a b c d = some n →
      isHighUnit n = false → isLowUnit n = false → Spells cs s rest →
      Spells ('\\' :: 'u' :: a :: b :: c :: d :: cs) (.ofNat n :: s) rest
  | pair {a b c d a' b' c' d' : Char} {n m : Nat} {cs s rest : List Char} :
      unit? a b c d = some n → isHighUnit n = true → unit? a' b' c' d' = some m →
      isLowUnit m = true → Spells cs s rest →
      Spells ('\\' :: 'u' :: a :: b :: c :: d :: '\\' :: 'u' :: a' :: b' :: c' :: d' :: cs)
        (.ofNat (0x10000 + (n - 0xd800) * 0x400 + (m - 0xdc00)) :: s) rest

inductive Quoted : List Char → String → List Char → Prop
  | mk {cs s rest : List Char} : Spells cs s rest → Quoted ('"' :: cs) (.ofList s) rest

section

variable (blank : Char → Prop)

inductive Skips : List Char → List Char → Prop
  | done {cs : List Char} : Skips cs cs
  | skip {c : Char} {cs rest : List Char} : blank c → Skips cs rest → Skips (c :: cs) rest

mutual

inductive Reads : List Char → Value → List Char → Prop
  | null {rest : List Char} : Reads ("null".toList ++ rest) .null rest
  | true {rest : List Char} : Reads ("true".toList ++ rest) (.bool true) rest
  | false {rest : List Char} : Reads ("false".toList ++ rest) (.bool false) rest
  | number {n rest : List Char} : Numeral n → Reads (n ++ rest) (.number n) rest
  | string {cs rest : List Char} {s : String} : Quoted cs s rest → Reads cs (.string s) rest
  | noItems {cs rest : List Char} : Skips blank cs (']' :: rest) →
      Reads ('[' :: cs) (.array []) rest
  | array {cs rest : List Char} {items : List Value} : ReadsItems cs items rest →
      Reads ('[' :: cs) (.array items) rest
  | noMembers {cs rest : List Char} : Skips blank cs ('\x7d' :: rest) →
      Reads ('\x7b' :: cs) (.object []) rest
  | object {cs rest : List Char} {members : List (String × Value)} :
      ReadsMembers cs members rest → Reads ('\x7b' :: cs) (.object members) rest

/-- One item or more, and the bracket that ends the array. -/
inductive ReadsItems : List Char → List Value → List Char → Prop
  | last {a b c rest : List Char} {v : Value} : Skips blank a b → Reads b v c →
      Skips blank c (']' :: rest) → ReadsItems a [v] rest
  | more {a b c d rest : List Char} {v : Value} {vs : List Value} : Skips blank a b →
      Reads b v c → Skips blank c (',' :: d) → ReadsItems d vs rest →
      ReadsItems a (v :: vs) rest

inductive ReadsMember : List Char → String × Value → List Char → Prop
  | mk {a b c d e f rest : List Char} {key : String} {v : Value} : Skips blank a b →
      Quoted b key c → Skips blank c (':' :: d) → Skips blank d e → Reads e v f →
      Skips blank f rest → ReadsMember a (key, v) rest

inductive ReadsMembers : List Char → List (String × Value) → List Char → Prop
  | last {cs rest : List Char} {m : String × Value} : ReadsMember cs m ('\x7d' :: rest) →
      ReadsMembers cs [m] rest
  | more {cs ds rest : List Char} {m : String × Value} {ms : List (String × Value)} :
      ReadsMember cs m (',' :: ds) → ReadsMembers ds ms rest → ReadsMembers cs (m :: ms) rest

end

end

/-- The whole text is one value, with white space where the format allows it. -/
def Denotes (text : List Char) (v : Value) : Prop :=
  ∃ a b, Skips IsBlank text a ∧ Reads IsBlank a v b ∧ Skips IsBlank b []

/-- The whole text is one value, without any white space between its tokens. -/
def DenotesCompactly (text : List Char) (v : Value) : Prop := Reads (fun _ => False) text v []

end MapLoader.Json
