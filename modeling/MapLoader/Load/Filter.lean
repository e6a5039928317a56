import MapLoader.Element

/-! Which kinds of elements are loaded. -/

namespace MapLoader

structure ElementFilter where
  /-- The kinds let through; without a list all are. -/
  kinds : Option (List ElementKind) := none
  deriving DecidableEq, Inhabited, Repr

namespace ElementFilter

def all : ElementFilter := {}

def only (kinds : List ElementKind) : ElementFilter := ⟨some kinds⟩

def includes (f : ElementFilter) (k : ElementKind) : Bool :=
  match f.kinds with
  | none => true
  | some kinds => k ∈ kinds

@[simp] theorem includes_all (k : ElementKind) : all.includes k = true := rfl

@[simp] theorem includes_only (kinds : List ElementKind) (k : ElementKind) :
    (only kinds).includes k = true ↔ k ∈ kinds := by simp [only, includes]

end ElementFilter

end MapLoader
