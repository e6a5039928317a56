/-! Settings as they come from files and variables, before it is known what they are for. -/

namespace MapLoader

inductive Setting
  | text (s : String)
  | flag (b : Bool)
  | whole (n : Int)
  /-- A number that is not written as a whole one. -/
  | decimal
  /-- A date, a time or both. -/
  | moment
  | list (items : List Setting)
  | table (entries : List (String × Setting))
  deriving Inhabited, Repr

/-- Named settings. Of two with one name the later counts. -/
abbrev Section := List (String × Setting)

namespace Section

def find? (s : Section) (name : String) : Option Setting := s.reverse.lookup name

@[simp] theorem find?_nil (name : String) : find? [] name = none := rfl

end Section

end MapLoader
