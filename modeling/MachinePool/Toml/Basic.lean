/-!
TOML documents: values, and the tables that keys and headers build up.

A table remembers how it came about (`Standing`), because that decides what may
still be added to it: an inline table is closed, a table with a header of its
own may not get another one, and a table made by dotted keys may only be
extended by dotted keys. `alterAt` walks a path of keys through these tables.
-/

namespace MachinePool

/-- How a table came about. -/
inductive Toml.Standing where
  /-- Written between braces. -/
  | inline
  /-- Named inside a dotted key. -/
  | dotted
  /-- Named inside the header of another table. -/
  | implied
  /-- Named by its own header; also the table of the whole document. -/
  | defined
  deriving DecidableEq, Repr

/-- A TOML value. Numbers with a fraction and moments in time keep nothing: no setting has one. -/
inductive Toml where
  | text (s : String)
  | integer (i : Int)
  | float
  | boolean (b : Bool)
  | moment
  | array (items : List Toml)
  /-- The tables of double-bracket headers. -/
  | sections (tables : List Toml)
  | table (standing : Toml.Standing) (entries : List (String × Toml))
  deriving Repr, Inhabited

namespace Toml

abbrev Entries := List (String × Toml)

def find? (entries : Entries) (key : String) : Option Toml :=
  (entries.find? (·.1 = key)).map (·.2)

def replace (entries : Entries) (key : String) (value : Toml) : Entries :=
  entries.map fun e => if e.1 = key then (key, value) else e

/-- Entries with a new key; a key that is there already is refused. -/
def addNew (entries : Entries) (key : String) (value : Toml) : Option Entries :=
  if (find? entries key).isSome then none else some (entries ++ [(key, value)])

/-- Whether a path may lead on through a table. -/
def Standing.enterable (byDots : Bool) : Standing → Bool
  | inline => false
  | defined => !byDots
  | dotted | implied => true

/-- Changes the table at the end of a path. Tables that are missing on the way are made; a row of
sections stands for its last one. `byDots` tells a dotted key from a header. -/
def alterAt (byDots : Bool) (change : Standing → Entries → Option Entries) :
    List String → Standing → Entries → Option Entries
  | [], standing, entries => change standing entries
  | key :: path, _, entries =>
    match find? entries key with
    | none => do
      let standing := if byDots then Standing.dotted else Standing.implied
      let inner ← alterAt byDots change path standing []
      some (entries ++ [(key, .table standing inner)])
    | some (.table standing inner) =>
      if standing.enterable byDots then do
        let inner ← alterAt byDots change path standing inner
        some (replace entries key (.table standing inner))
      else none
    | some (.sections tables) =>
      match tables.getLast? with
      | some (.table standing inner) => do
        let inner ← alterAt byDots change path standing inner
        some (replace entries key (.sections (tables.dropLast ++ [.table standing inner])))
      | _ => none
    | some _ => none

/-- Adds a value under a dotted key: the keys before the last one may only lead through tables
that are made by dotted keys. -/
def addAt (path : List String) (key : String) (value : Toml) (standing : Standing)
    (entries : Entries) : Option Entries :=
  alterAt true
    (fun standing entries =>
      if path ≠ [] ∧ standing ≠ .dotted then none else addNew entries key value)
    path standing entries

def openTable (key : String) (entries : Entries) : Option Entries :=
  match find? entries key with
  | none => some (entries ++ [(key, .table .defined [])])
  | some (.table .implied inner) => some (replace entries key (.table .defined inner))
  | some _ => none

/-- Opens one more table of a double-bracket header. -/
def openSection (key : String) (entries : Entries) : Option Entries :=
  match find? entries key with
  | none => some (entries ++ [(key, .sections [.table .defined []])])
  | some (.sections tables) =>
    some (replace entries key (.sections (tables ++ [.table .defined []])))
  | some _ => none

end Toml

end MachinePool
