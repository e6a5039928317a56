import MapLoader.Text.Utf8

/-! Why an element of an extract cannot be used: a string that it refers to is missing or is not
text. -/

namespace MapLoader

inductive Malformed
  | indexOutOfBounds (index : Nat)
  | notText (index : Nat) (error : Text.Utf8Error)
  deriving DecidableEq, Repr

def Malformed.text : Malformed → String
  | indexOutOfBounds index => s!"stringtable index out of bounds: {index}"
  | notText index error => s!"invalid UTF-8 at string table index {index}: {error.text}"

end MapLoader
