import MapLoader.Config.Setting

/-! The tables of a TOML document while it is read. A table may be extended by later lines only
in the way it came to be: by its own header once, by headers below it, or by dotted keys. -/

namespace MapLoader.Toml

inductive Origin
  /-- Its own header was read. -/
  | header
  /-- A header of a table below it was read. -/
  | implied
  /-- A dotted key went through it. -/
  | dotted
  deriving DecidableEq, Repr

inductive Entry
  | value (s : Setting)
  | table (origin : Origin) (entries : List (String × Entry))
  /-- An array of tables, of which the last is being read. -/
  | tables (items : List (List (String × Entry)))

abbrev Entries := List (String × Entry)

def alter (key : String) (change : Option Entry → Option Entry) : Entries → Option Entries
  | [] => (change none).map fun e => [(key, e)]
  | (k, e) :: rest =>
    if k = key then (change (some e)).map fun e => (k, e) :: rest
    else (alter key change rest).map ((k, e) :: ·)

def alterLast (change : Entries → Option Entries) :
    List Entries → Option (List Entries)
  | [] => none
  | [es] => (change es).map fun es => [es]
  | es :: rest => (alterLast change rest).map (es :: ·)

/-- Changes the table that the keys of a header lead to. -/
def below : List String → (Entries → Option Entries) → Entries → Option Entries
  | [], change, es => change es
  | key :: path, change, es =>
    alter key (fun
      | none => (below path change []).map (.table .implied)
      | some (.table origin es) => (below path change es).map (.table origin)
      | some (.tables items) => (alterLast (below path change) items).map .tables
      | some (.value _) => none) es

def openTable (key : String) : Entries → Option Entries :=
  alter key fun
    | none => some (.table .header [])
    | some (.table .implied es) => some (.table .header es)
    | some _ => none

def openTables (key : String) : Entries → Option Entries :=
  alter key fun
    | none => some (.tables [[]])
    | some (.tables items) => some (.tables (items ++ [[]]))
    | some _ => none

/-- Adds a value under a dotted key. The table that it goes to is the current one, or one made
by dotted keys: `own` says whether it is. -/
def assign (own : Bool) : List String → String → Setting → Entries → Option Entries
  | [], key, s, es =>
    if own then
      alter key (fun
        | none => some (.value s)
        | some _ => none) es
    else none
  | k :: path, key, s, es =>
    alter k (fun
      | none => (assign true path key s []).map (.table .dotted)
      | some (.table .dotted es) => (assign true path key s es).map (.table .dotted)
      | some (.table .implied es) => (assign false path key s es).map (.table .implied)
      | some (.tables items) => (alterLast (assign false path key s) items).map .tables
      | some (.table .header _) | some (.value _) => none) es

mutual

def Entry.setting : Entry → Setting
  | .value s => s
  | .table _ es => .table (settings es)
  | .tables items => .list (listSettings items)

def settings : Entries → Section
  | [] => []
  | (k, e) :: rest => (k, e.setting) :: settings rest

def listSettings : List Entries → List Setting
  | [] => []
  | es :: rest => .table (settings es) :: listSettings rest

end

end MapLoader.Toml
