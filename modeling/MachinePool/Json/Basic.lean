import MachinePool.Decimal
import MachinePool.Text.Digits

/-!
JSON values as their text has them: members in order and with repetitions,
natural numbers apart from all others.

A text may hold what no record can: a string that escapes half of a surrogate
pair denotes no text (`none`), and a number may lie beyond every floating-point
number. Such values may stand where a value is skipped. Where a value is kept
for later it must be `keepable`.
-/

namespace MachinePool

inductive Json where
  | null
  | bool (value : Bool)
  /-- A number written without sign, fraction and exponent. -/
  | natural (value : Nat)
  /-- Any other number: digits of which the last `places` stand after the point, times a power of
  ten, negated or not. -/
  | decimal (negative : Bool) (digits places : Nat) (exponent : Int)
  /-- A string, or `none` when its escapes denote no text. -/
  | string (text : Option String)
  | array (items : List Json)
  | object (members : List (Option String × Json))
  deriving Repr, Inhabited, BEq

namespace Json

def text (s : String) : Json := .string (some s)

def record (members : List (String × Json)) : Json :=
  .object (members.map fun m => (some m.1, m.2))

def word (n : UInt64) : Json := .natural n.toNat

/-- The value, or null when there is none. -/
def optional {α : Type} (write : α → Json) : Option α → Json
  | none => .null
  | some a => write a

def list {α : Type} (write : α → Json) (items : List α) : Json := .array (items.map write)

/-! ### Values that can be kept -/

/-- The digits of a number before the point, at least one. -/
def wholeDigits (digits places : Nat) : List Char := Text.decimalDigits (digits / Nat.pow 10 places)

/-- The digits of a number after the point, as many as it has places. -/
def fractionDigits (digits places : Nat) : List Char :=
  if places = 0 then []
  else
    let written := Text.decimalDigits (digits % Nat.pow 10 places)
    List.replicate (places - written.length) '0' ++ written

def numberKeepable (digits places : Nat) (exponent : Int) : Bool :=
  !(Decimal.Scaled.ofDigits (wholeDigits digits places) (fractionDigits digits places)
    exponent).overflows

mutual

/-- Whether every string in the value is a text, every number is a double, and containers nest at
most `room` deep. -/
def keepable (room : Nat) : Json → Bool
  | null => true
  | bool _ => true
  | natural n => numberKeepable n 0 0
  | decimal _ digits places exponent => numberKeepable digits places exponent
  | string text => text.isSome
  | array items =>
    match room with
    | 0 => false
    | room + 1 => itemsKeepable room items
  | object members =>
    match room with
    | 0 => false
    | room + 1 => membersKeepable room members

def itemsKeepable (room : Nat) : List Json → Bool
  | [] => true
  | item :: items => keepable room item && itemsKeepable room items

def membersKeepable (room : Nat) : List (Option String × Json) → Bool
  | [] => true
  | (key, value) :: members =>
    key.isSome && keepable room value && membersKeepable room members

end

end Json

end MachinePool
