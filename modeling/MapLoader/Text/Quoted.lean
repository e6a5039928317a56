import MapLoader.Text.Invisible

/-! Text in double quotes for messages: quotes, backslashes and whatever would not show are
escaped, so that a message stays on one line and its ends can be seen. -/

namespace MapLoader.Text

structure QuoteStyle where
  escapesApostrophe : Bool
  deriving DecidableEq, Repr

def QuoteStyle.word : QuoteStyle := ⟨false⟩

def QuoteStyle.path : QuoteStyle := ⟨true⟩

def codePointEscape (c : Char) : List Char :=
  ['\\', 'u', '\x7b'] ++ Nat.toDigits 16 c.toNat ++ ['\x7d']

def quoteChar (style : QuoteStyle) (c : Char) : List Char :=
  if c = '\x00' then ['\\', '0']
  else if c = '\t' then ['\\', 't']
  else if c = '\r' then ['\\', 'r']
  else if c = '\n' then ['\\', 'n']
  else if c = '"' ∨ c = '\\' then ['\\', c]
  else if c = '\x27' ∧ style.escapesApostrophe then ['\\', c]
  else if isInvisible c then codePointEscape c
  else [c]

def quote (style : QuoteStyle) (s : String) : String :=
  .ofList ('"' :: s.toList.flatMap (quoteChar style) ++ ['"'])

end MapLoader.Text
