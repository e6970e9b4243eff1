import MachinePool.Json.Basic
import MachinePool.Text.Digits

/-!
Reading JSON. The whole text must be one value between blanks; the grammar is
the strict one: no comments, no trailing commas, no leading zeros, no raw
control characters inside strings.

A string is read in two steps, first into its characters and escaped sixteen-bit
units (`StringUnit`), then into a text, for which the escaped halves of
surrogate pairs must fit together.
-/

namespace MachinePool.Json

open Text

def isSpace (c : Char) : Bool := c == ' ' || c == '\n' || c == '\t' || c == '\r'

def skipSpace (cs : List Char) : List Char := cs.dropWhile isSpace

/-! ### Strings -/

/-- A piece of a string: a character, or a sixteen-bit unit given by an escape. -/
inductive StringUnit where
  | plain (c : Char)
  | escaped (unit : Nat)
  deriving DecidableEq, Repr

def escapedChar? : Char → Option Char
  | '\x22' => some '\x22'
  | '\\' => some '\\'
  | '/' => some '/'
  | 'b' => some '\x08'
  | 'f' => some '\x0c'
  | 'n' => some '\n'
  | 'r' => some '\r'
  | 't' => some '\t'
  | _ => none

/-- The units of a string up to its closing quote, and what follows it. -/
def readUnits? : List Char → Option (List StringUnit × List Char)
  | [] => none
  | '\x22' :: rest => some ([], rest)
  | '\\' :: 'u' :: a :: b :: c :: d :: rest => do
    let unit ← readDigits? 16 [a, b, c, d]
    let (units, rest) ← readUnits? rest
    some (.escaped unit :: units, rest)
  | '\\' :: e :: rest => do
    let c ← escapedChar? e
    let (units, rest) ← readUnits? rest
    some (.plain c :: units, rest)
  | c :: rest =>
    if c < ' ' || c = '\\' then none
    else (readUnits? rest).map fun (units, rest) => (.plain c :: units, rest)

/-- The first half of a surrogate pair. -/
def isHighHalf (unit : Nat) : Bool := 0xd800 ≤ unit && unit < 0xdc00

def isLowHalf (unit : Nat) : Bool := 0xdc00 ≤ unit && unit < 0xe000

def joinHalves (high low : Nat) : Char :=
  Char.ofNat (0x10000 + (high - 0xd800) * 0x400 + (low - 0xdc00))

/-- The characters the units denote, given the first half of a pair that was read last. -/
def joinUnits? : Option Nat → List StringUnit → Option (List Char)
  | none, [] => some []
  | some _, [] => none
  | none, .plain c :: rest => (joinUnits? none rest).map (c :: ·)
  | some _, .plain _ :: _ => none
  | none, .escaped unit :: rest =>
    if isHighHalf unit then joinUnits? (some unit) rest
    else if isLowHalf unit then none
    else (joinUnits? none rest).map (Char.ofNat unit :: ·)
  | some high, .escaped unit :: rest =>
    if isLowHalf unit then (joinUnits? none rest).map (joinHalves high unit :: ·) else none

/-- A string after its opening quote, and what follows it. -/
def readString? (cs : List Char) : Option (Option String × List Char) :=
  (readUnits? cs).map fun (units, rest) => ((joinUnits? none units).map String.ofList, rest)

/-! ### Numbers -/

def spanDigits (cs : List Char) : List Char × List Char :=
  (cs.takeWhile Char.isDigit, cs.dropWhile Char.isDigit)

/-- The digits of a whole part: one zero, or digits that begin with none. -/
def readWhole? (cs : List Char) : Option (List Char × List Char) :=
  match cs with
  | '0' :: rest => some (['0'], rest)
  | _ =>
    match spanDigits cs with
    | ([], _) => none
    | digits => some digits

/-- The digits after a point, none if there is no point. -/
def readFraction? : List Char → Option (List Char × List Char)
  | '.' :: rest =>
    match spanDigits rest with
    | ([], _) => none
    | digits => some digits
  | cs => some ([], cs)

/-- The digits after the letter of an exponent and an optional sign, with the sign. -/
def readSignedDigits? (cs : List Char) : Option (Int × List Char) :=
  let (negative, cs) := match cs with
    | '-' :: rest => (true, rest)
    | '+' :: rest => (false, rest)
    | _ => (false, cs)
  let (digits, rest) := spanDigits cs
  (readDigits? 10 digits).map fun n => (if negative then -(n : Int) else n, rest)

def readExponent? : List Char → Option (Option Int × List Char)
  | 'e' :: rest => (readSignedDigits? rest).map fun (e, rest) => (some e, rest)
  | 'E' :: rest => (readSignedDigits? rest).map fun (e, rest) => (some e, rest)
  | cs => some (none, cs)

def readUnsigned? (negative : Bool) (cs : List Char) : Option (Json × List Char) := do
  let (whole, rest) ← readWhole? cs
  let (fraction, rest) ← readFraction? rest
  let (exponent, rest) ← readExponent? rest
  let digits ← readDigits? 10 (whole ++ fraction)
  if !negative && fraction.isEmpty && exponent.isNone then some (.natural digits, rest)
  else some (.decimal negative digits fraction.length (exponent.getD 0), rest)

def readNumber? : List Char → Option (Json × List Char)
  | '-' :: rest => readUnsigned? true rest
  | cs => readUnsigned? false cs

/-! ### Values -/

mutual

/-- A value and what follows it. The fuel bounds the number of values and separators. -/
def readValue? : Nat → List Char → Option (Json × List Char)
  | 0, _ => none
  | fuel + 1, cs =>
    match skipSpace cs with
    | 'n' :: 'u' :: 'l' :: 'l' :: rest => some (.null, rest)
    | 't' :: 'r' :: 'u' :: 'e' :: rest => some (.bool true, rest)
    | 'f' :: 'a' :: 'l' :: 's' :: 'e' :: rest => some (.bool false, rest)
    | '\x22' :: rest => (readString? rest).map fun (s, rest) => (.string s, rest)
    | '[' :: rest =>
      match skipSpace rest with
      | ']' :: rest => some (.array [], rest)
      | rest => (readItems? fuel rest).map fun (items, rest) => (.array items, rest)
    | '\x7b' :: rest =>
      match skipSpace rest with
      | '\x7d' :: rest => some (.object [], rest)
      | rest => (readMembers? fuel rest).map fun (members, rest) => (.object members, rest)
    | cs => readNumber? cs

def readItems? : Nat → List Char → Option (List Json × List Char)
  | 0, _ => none
  | fuel + 1, cs => do
    let (item, rest) ← readValue? fuel cs
    match skipSpace rest with
    | ']' :: rest => some ([item], rest)
    | ',' :: rest => (readItems? fuel rest).map fun (items, rest) => (item :: items, rest)
    | _ => none

def readMembers? : Nat → List Char → Option (List (Option String × Json) × List Char)
  | 0, _ => none
  | fuel + 1, cs =>
    match skipSpace cs with
    | '\x22' :: rest => do
      let (key, rest) ← readString? rest
      match skipSpace rest with
      | ':' :: rest => do
        let (value, rest) ← readValue? fuel rest
        match skipSpace rest with
        | '\x7d' :: rest => some ([(key, value)], rest)
        | ',' :: rest =>
          (readMembers? fuel rest).map fun (members, rest) => ((key, value) :: members, rest)
        | _ => none
      | _ => none
    | _ => none

end

/-- Reads a text that is one value between blanks. -/
def parse? (text : String) : Option Json :=
  match readValue? (text.toList.length + 1) text.toList with
  | some (j, rest) => if skipSpace rest = [] then some j else none
  | none => none

end MachinePool.Json
