/-! Paths as text: the parts between slashes, kept just as they were written. -/

namespace MapLoader

structure Path where
  absolute : Bool
  parts : List String
  deriving DecidableEq, Inhabited, Repr

namespace Path

def split : List Char → List (List Char)
  | [] => [[]]
  | c :: cs =>
    match split cs with
    | [] => [[c]]
    | p :: ps => if c = '/' then [] :: p :: ps else (c :: p) :: ps

def ofText (s : String) : Path :=
  match s.toList with
  | '/' :: cs => ⟨true, (split cs).map .ofList⟩
  | cs => ⟨false, (split cs).map .ofList⟩

def text (p : Path) : String :=
  (if p.absolute then "/" else "") ++ String.intercalate "/" p.parts

/-- Drops what a path may end in without naming anything: empty parts, and dots unless a
relative path starts with one. -/
def trimEnd (mayStartWithDot : Bool) : List String → List String
  | [] => []
  | s :: rest =>
    let rest := trimEnd false rest
    if rest.isEmpty && (s == "" || (s == "." && !mayStartWithDot)) then [] else s :: rest

/-- The path without its last name; the root and the empty path have no parent. -/
def parent? (p : Path) : Option Path :=
  let parts := trimEnd (!p.absolute) p.parts
  if parts.isEmpty then none
  else some { p with parts := trimEnd (!p.absolute) parts.dropLast }

/-- The names along a path, `..` included. -/
def names (p : Path) : List String := p.parts.filter fun s => s != "" && s != "."

def isEmpty (p : Path) : Bool := !p.absolute && p.parts.all (· == "")

example : (ofText "a/b.db").parent? = some (ofText "a") := by decide +kernel

example : (ofText "b.db").parent?.map text = some "" := by decide +kernel

example : (ofText "/").parent? = none ∧ (ofText "").parent? = none := by decide +kernel

end Path

end MapLoader
