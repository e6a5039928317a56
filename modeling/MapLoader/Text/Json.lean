/-! Strings and flat objects in compact JSON. Quotes, backslashes and control characters are
escaped and nothing else is; readers know all escapes of the format. -/

namespace MapLoader.Json

def escapeChar (c : Char) : List Char :=
  if c = '"' then ['\\', '"']
  else if c = '\\' then ['\\', '\\']
  else if c = '\x08' then ['\\', 'b']
  else if c = '\x0c' then ['\\', 'f']
  else if c = '\n' then ['\\', 'n']
  else if c = '\r' then ['\\', 'r']
  else if c = '\t' then ['\\', 't']
  else if c.toNat < 0x20 then
    ['\\', 'u', '0', '0', Nat.digitChar (c.toNat / 16), Nat.digitChar (c.toNat % 16)]
  else [c]

def encodeString (s : List Char) : List Char := '"' :: s.flatMap escapeChar ++ ['"']

def encodeMember (m : String × String) : List Char :=
  encodeString m.1.toList ++ ':' :: encodeString m.2.toList

/-- The members in the order given, without white space. -/
def encodeObject (members : List (String × String)) : List Char :=
  '\x7b' :: (List.intercalate [','] (members.map encodeMember) ++ ['\x7d'])

def unescape? (c : Char) : Option Char :=
  if c = '"' ∨ c = '\\' ∨ c = '/' then some c
  else if c = 'b' then some '\x08'
  else if c = 'f' then some '\x0c'
  else if c = 'n' then some '\n'
  else if c = 'r' then some '\r'
  else if c = 't' then some '\t'
  else none

def hexDigit? (c : Char) : Option Nat :=
  if '0' ≤ c ∧ c ≤ '9' then some (c.toNat - 48)
  else if 'a' ≤ c ∧ c ≤ 'f' then some (c.toNat - 87)
  else if 'A' ≤ c ∧ c ≤ 'F' then some (c.toNat - 55)
  else none

def unit? (a b c d : Char) : Option Nat :=
  match hexDigit? a, hexDigit? b, hexDigit? c, hexDigit? d with
  | some a, some b, some c, some d => some (((a * 16 + b) * 16 + c) * 16 + d)
  | _, _, _, _ => none

def isHighUnit (n : Nat) : Bool := 0xd800 ≤ n && n < 0xdc00

def isLowUnit (n : Nat) : Bool := 0xdc00 ≤ n && n < 0xe000

/-- Reads the characters of a string up to the quote that ends it. A character past the first
65536 may be written as two units; half of such a pair is no character. -/
def readChars : List Char → Option (List Char × List Char)
  | [] => none
  | '\\' :: 'u' :: a :: b :: c :: d :: rest =>
    match unit? a b c d with
    | none => none
    | some n =>
      if isHighUnit n then
        match rest with
        | '\\' :: 'u' :: a :: b :: c :: d :: rest =>
          match unit? a b c d with
          | none => none
          | some m =>
            if isLowUnit m then
              (readChars rest).map fun (cs, rest) =>
                (.ofNat (0x10000 + (n - 0xd800) * 0x400 + (m - 0xdc00)) :: cs, rest)
            else none
        | _ => none
      else if isLowUnit n then none
      else (readChars rest).map fun (cs, rest) => (.ofNat n :: cs, rest)
  | '\\' :: c :: rest =>
    match unescape? c with
    | none => none
    | some c => (readChars rest).map fun (cs, rest) => (c :: cs, rest)
  | c :: rest =>
    if c = '"' then some ([], rest)
    else if c = '\\' ∨ c.toNat < 0x20 then none
    else (readChars rest).map fun (cs, rest) => (c :: cs, rest)

def readString : List Char → Option (List Char × List Char)
  | '"' :: rest => readChars rest
  | _ => none

def readMember (cs : List Char) : Option ((String × String) × List Char) :=
  match readString cs with
  | some (key, ':' :: rest) =>
    (readString rest).map fun (value, rest) => ((.ofList key, .ofList value), rest)
  | _ => none

theorem length_readChars {cs s rest : List Char} (h : readChars cs = some (s, rest)) :
    rest.length < cs.length := by
  fun_induction readChars cs generalizing s rest <;>
    simp_all only [Option.map_eq_some_iff, Prod.mk.injEq, Prod.exists, Option.some.injEq,
      reduceCtorEq, List.length_cons]
  all_goals grind

theorem length_readString {cs s rest : List Char} (h : readString cs = some (s, rest)) :
    rest.length < cs.length := by
  unfold readString at h
  split at h
  · exact Nat.lt_succ_of_lt (length_readChars h)
  · simp at h

theorem length_readMember {cs rest : List Char} {m : String × String}
    (h : readMember cs = some (m, rest)) : rest.length < cs.length := by
  unfold readMember at h
  split at h
  · rename_i key rest' hk
    obtain ⟨⟨value, r⟩, hv, he⟩ := Option.map_eq_some_iff.1 h
    cases he
    have hk := length_readString hk
    have hv := length_readString hv
    simp only [List.length_cons] at hk
    omega
  · simp at h

def readMembers (cs : List Char) : Option (List (String × String) × List Char) :=
  match _h : readMember cs with
  | none => none
  | some (m, c :: rest) =>
    if c = '\x7d' then some ([m], rest)
    else if c = ',' then (readMembers rest).map fun (ms, rest) => (m :: ms, rest)
    else none
  | some (_, []) => none
termination_by cs.length
decreasing_by exact Nat.lt_of_succ_lt (length_readMember _h)

/-- The members of an object of strings that is written without white space. -/
def decodeObject? : List Char → Option (List (String × String))
  | ['\x7b', '\x7d'] => some []
  | '\x7b' :: cs =>
    match readMembers cs with
    | some (ms, []) => some ms
    | _ => none
  | _ => none

end MapLoader.Json
