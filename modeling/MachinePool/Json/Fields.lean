import MachinePool.Json.Basic

/-!
Reading records out of JSON values.

A record is an object whose members are its fields in any order, or an array of
its fields in their declared order. Members with other keys are skipped, but a
field must not be given twice and every key must be a text.

A field is read in one of three ways: `required`; `optional`, which is absent
when an object leaves it out or gives null, while an array must give it; and
`orElse`, which has a default for a field left out at either place. An array may
only leave out fields at its end, and never holds more items than fields.
-/

namespace MachinePool.Json

/-- The fields of a record that a value gives. -/
structure Fields where
  /-- Whether the value is an array, which names no fields. -/
  byPosition : Bool
  entries : List (String × Json)
  deriving Repr

/-- The members of an object under the keys in `names`, none of them twice. -/
def pickMembers? (names : List String) :
    List (Option String × Json) → Option (List (String × Json))
  | [] => some []
  | (none, _) :: _ => none
  | (some key, value) :: rest => do
    let entries ← pickMembers? names rest
    if key ∉ names then some entries
    else if entries.any (·.1 = key) then none
    else some ((key, value) :: entries)

def fields? (names : List String) : Json → Option Fields
  | .object members => (pickMembers? names members).map (⟨false, ·⟩)
  | .array items => if items.length ≤ names.length then some ⟨true, names.zip items⟩ else none
  | _ => none

namespace Fields

def find? (fields : Fields) (name : String) : Option Json :=
  (fields.entries.find? (·.1 = name)).map (·.2)

variable {α : Type}

def required (fields : Fields) (name : String) (read : Json → Option α) : Option α :=
  (fields.find? name).bind read

def orElse (fields : Fields) (name : String) (default : α) (read : Json → Option α) : Option α :=
  match fields.find? name with
  | some value => read value
  | none => some default

/-- A field that an object may leave out. -/
def optional (fields : Fields) (name : String) (read : Json → Option (Option α)) :
    Option (Option α) :=
  match fields.find? name with
  | some value => read value
  | none => if fields.byPosition then none else some none

end Fields

/-! ### Readers of single values -/

def text? : Json → Option String
  | .string s => s
  | _ => none

def bool? : Json → Option Bool
  | .bool b => some b
  | _ => none

/-- A natural number below 2⁶⁴. -/
def word? : Json → Option UInt64
  | .natural n => if n < UInt64.size then some (UInt64.ofNat n) else none
  | _ => none

def nullable? {α : Type} (read : Json → Option α) : Json → Option (Option α)
  | .null => some none
  | j => (read j).map some

def list? {α : Type} (read : Json → Option α) : Json → Option (List α)
  | .array items => items.mapM read
  | _ => none

/-- One of the values in `choices`, by its word: the word as a string, or as the one key of an
object that gives it null. -/
def choice? {α : Type} (wordOf : α → String) (choices : List α) : Json → Option α
  | .string (some s) => choices.find? (wordOf · = s)
  | .object [(some s, .null)] => choices.find? (wordOf · = s)
  | _ => none

end MachinePool.Json
