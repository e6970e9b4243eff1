import MachinePool.Json.Basic
import MachinePool.Text.Digits

/-!
Writing JSON: the compact form on one line, and the form for readers with an
indentation of two spaces a level.

Strings keep every character except quotes, backslashes and the controls below
the space, which are escaped.
-/

namespace MachinePool.Json

open Text

def escape (c : Char) : List Char :=
  if c = '\x22' then ['\\', '\x22']
  else if c = '\\' then ['\\', '\\']
  else if c = '\x08' then ['\\', 'b']
  else if c = '\t' then ['\\', 't']
  else if c = '\n' then ['\\', 'n']
  else if c = '\x0c' then ['\\', 'f']
  else if c = '\r' then ['\\', 'r']
  else if c < ' ' then ['\\', 'u'] ++ fourHexDigits hexDigit c.toNat
  else [c]

def quote (cs : List Char) : List Char := '\x22' :: cs.flatMap escape ++ ['\x22']

/-- A string; one that denotes no text is written as half a surrogate pair, which denotes none
either. -/
def stringText : Option String → List Char
  | some s => quote s.toList
  | none => ['\x22', '\\', 'u', 'd', '8', '0', '0', '\x22']

/-- A number that is not natural. -/
def decimalText (negative : Bool) (digits places : Nat) (exponent : Int) : List Char :=
  let sign := if negative then ['-'] else []
  let fraction := if places = 0 then [] else '.' :: fractionDigits digits places
  let power := match exponent with
    | .ofNat e => 'e' :: decimalDigits e
    | .negSucc e => 'e' :: '-' :: decimalDigits (e + 1)
  sign ++ wholeDigits digits places ++ fraction ++ power

/-- A scalar; containers are written around it. -/
def scalarText : Json → List Char
  | null => ['n', 'u', 'l', 'l']
  | bool true => ['t', 'r', 'u', 'e']
  | bool false => ['f', 'a', 'l', 's', 'e']
  | natural n => decimalDigits n
  | decimal negative digits places exponent => decimalText negative digits places exponent
  | string text => stringText text
  | array _ => []
  | object _ => []

/-! ### The compact form -/

mutual

/-- The value on one line without blanks. -/
def compact : Json → List Char
  | array items => '[' :: compactItems items
  | object members => '\x7b' :: compactMembers members
  | scalar => scalarText scalar

def compactItems : List Json → List Char
  | [] => [']']
  | [item] => compact item ++ [']']
  | item :: items => compact item ++ ',' :: compactItems items

def compactMembers : List (Option String × Json) → List Char
  | [] => ['\x7d']
  | [(key, value)] => stringText key ++ ':' :: compact value ++ ['\x7d']
  | (key, value) :: members =>
    stringText key ++ ':' :: compact value ++ ',' :: compactMembers members

end

def render (j : Json) : String := String.ofList j.compact

/-! ### The indented form -/

def lineAt (level : Nat) : List Char := '\n' :: List.replicate (2 * level) ' '

mutual

/-- The value at a level, with every item and member on a line of its own. -/
def indented (level : Nat) : Json → List Char
  | array [] => ['[', ']']
  | array items => '[' :: indentedItems level items
  | object [] => ['\x7b', '\x7d']
  | object members => '\x7b' :: indentedMembers level members
  | scalar => scalarText scalar

def indentedItems (level : Nat) : List Json → List Char
  | [] => lineAt level ++ [']']
  | [item] => lineAt (level + 1) ++ indented (level + 1) item ++ lineAt level ++ [']']
  | item :: items =>
    lineAt (level + 1) ++ indented (level + 1) item ++ ',' :: indentedItems level items

def indentedMembers (level : Nat) : List (Option String × Json) → List Char
  | [] => lineAt level ++ ['\x7d']
  | [(key, value)] =>
    lineAt (level + 1) ++ stringText key ++ [':', ' '] ++ indented (level + 1) value ++
      lineAt level ++ ['\x7d']
  | (key, value) :: members =>
    lineAt (level + 1) ++ stringText key ++ [':', ' '] ++ indented (level + 1) value ++
      ',' :: indentedMembers level members

end

def renderIndented (j : Json) : String := String.ofList (j.indented 0)

end MachinePool.Json
