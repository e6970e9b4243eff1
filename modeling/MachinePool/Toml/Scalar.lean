import MachinePool.Decimal
import MachinePool.Text.Digits
import MachinePool.Toml.Basic

/-!
TOML values that are one word: truth values, integers, floating-point numbers
and moments in time.

Digits may be grouped by single underscores between them. An integer fits into
sixty-four bits with a sign; a positive number with a fraction or an exponent
must not round to infinity.
-/

namespace MachinePool.Toml

open Text

/-! ### Numbers -/

def ungrouped? (base : Nat) : List Char → Option (List Char)
  | [] => none
  | [c] => (digitValue? base c).map fun _ => [c]
  | c :: '_' :: rest => do
    let _ ← digitValue? base c
    let digits ← ungrouped? base rest
    some (c :: digits)
  | c :: rest => do
    let _ ← digitValue? base c
    let digits ← ungrouped? base rest
    some (c :: digits)

def groupedDigits? (base : Nat) (cs : List Char) : Option Nat :=
  (ungrouped? base cs).bind (readDigits? base)

/-- The digits of a decimal whole part: one zero, or digits that begin with none. -/
def wholeDigits? (cs : List Char) : Option (List Char) :=
  if cs.head? = some '0' ∧ cs ≠ ['0'] then none else ungrouped? 10 cs

/-- A sign in front of a number, and what follows it; `true` is minus. -/
def splitSign : List Char → Bool × List Char
  | '+' :: rest => (false, rest)
  | '-' :: rest => (true, rest)
  | cs => (false, cs)

def boundedInteger? (i : Int) : Option Toml :=
  if -0x8000000000000000 ≤ i ∧ i < 0x8000000000000000 then some (.integer i) else none

/-- An integer: decimal with an optional sign, or hexadecimal, octal or binary after `0x`, `0o` or
`0b`. -/
def integer? : List Char → Option Toml
  | '0' :: 'x' :: digits => (groupedDigits? 16 digits).bind fun n => boundedInteger? n
  | '0' :: 'o' :: digits => (groupedDigits? 8 digits).bind fun n => boundedInteger? n
  | '0' :: 'b' :: digits => (groupedDigits? 2 digits).bind fun n => boundedInteger? n
  | cs => do
    let (negative, cs) := splitSign cs
    let digits ← wholeDigits? cs
    let n ← readDigits? 10 digits
    boundedInteger? (if negative then -(n : Int) else n)

def exponent? : List Char → Option Int
  | [] => some 0
  | _ :: cs =>
    let (negative, cs) := splitSign cs
    (groupedDigits? 10 cs).map fun n => if negative then -(n : Int) else n

def fractional? (cs : List Char) : Option Toml := do
  let (negative, cs) := splitSign cs
  if cs = ['i', 'n', 'f'] || cs = ['n', 'a', 'n'] then some .float
  else
    let isMark := fun c => c == 'e' || c == 'E'
    let mantissa := cs.takeWhile (!isMark ·)
    let marked := cs.dropWhile (!isMark ·)
    let exponent ← exponent? marked
    let whole ← wholeDigits? (mantissa.takeWhile (· != '.'))
    let fraction ← match mantissa.dropWhile (· != '.') with
      | [] => if marked = [] then none else some []
      | _ :: digits => ungrouped? 10 digits
    let significand ← readDigits? 10 (whole ++ fraction)
    if !negative && Decimal.overflows significand (exponent - fraction.length) then none
    else some .float

/-! ### Moments -/

/-- A number of exactly two digits that is at most `most`, and what follows it. -/
def twoDigits? (most : Nat) : List Char → Option (Nat × List Char)
  | a :: b :: rest => do
    let n ← readDigits? 10 [a, b]
    if n ≤ most then some (n, rest) else none
  | _ => none

def after? (mark : Char) : List Char → Option (List Char)
  | c :: rest => if c = mark then some rest else none
  | [] => none

def daysIn (year month : Nat) : Nat :=
  if month = 2 then
    if year % 4 = 0 ∧ (year % 100 ≠ 0 ∨ year % 400 = 0) then 29 else 28
  else if month = 4 ∨ month = 6 ∨ month = 9 ∨ month = 11 then 30
  else 31

def skipDate? : List Char → Option (List Char)
  | a :: b :: c :: d :: rest => do
    let year ← readDigits? 10 [a, b, c, d]
    let rest ← after? '-' rest
    let (month, rest) ← twoDigits? 12 rest
    let rest ← after? '-' rest
    let (day, rest) ← twoDigits? 31 rest
    if 1 ≤ month ∧ 1 ≤ day ∧ day ≤ daysIn year month then some rest else none
  | _ => none

/-- What follows a time of day; the sixty-first second is a leap second. -/
def skipTime? (cs : List Char) : Option (List Char) := do
  let (_, rest) ← twoDigits? 23 cs
  let rest ← after? ':' rest
  let (_, rest) ← twoDigits? 59 rest
  let rest ← after? ':' rest
  let (_, rest) ← twoDigits? 60 rest
  match rest with
  | '.' :: fraction =>
    match fraction.takeWhile Char.isDigit with
    | [] => none
    | _ => some (fraction.dropWhile Char.isDigit)
  | _ => some rest

/-- Whether a text is the distance from universal time, or empty. -/
def isOffset : List Char → Bool
  | [] => true
  | ['Z'] => true
  | ['z'] => true
  | c :: cs =>
    (c == '+' || c == '-') &&
      ((do
        let (_, rest) ← twoDigits? 23 cs
        let rest ← after? ':' rest
        let (_, rest) ← twoDigits? 59 rest
        if rest = [] then some () else none).isSome)

def isZonedTime (cs : List Char) : Bool := (skipTime? cs).any isOffset

/-- Whether a text is a date, perhaps followed by a time. -/
def isDate (cs : List Char) : Bool :=
  match skipDate? cs with
  | some [] => true
  | some (c :: time) => (c == 'T' || c == 't') && isZonedTime time
  | none => false

/-! ### Words -/

def isWordChar (c : Char) : Bool :=
  c.isAlphanum || c == '+' || c == '-' || c == '.' || c == '_' || c == ':'

def word? (cs : List Char) : Option Toml :=
  if cs = ['t', 'r', 'u', 'e'] then some (.boolean true)
  else if cs = ['f', 'a', 'l', 's', 'e'] then some (.boolean false)
  else if isDate cs || skipTime? cs = some [] then some .moment
  else (integer? cs).or (fractional? cs)

/-- The value of the word at the front of a text, and what follows it. A date may be followed by a
blank and a time. -/
def readWord? (cs : List Char) : Option (Toml × List Char) := do
  let front := cs.takeWhile isWordChar
  let rest := cs.dropWhile isWordChar
  match rest with
  | ' ' :: c :: more =>
    if skipDate? front = some [] && c.isDigit then
      let time := (c :: more).takeWhile isWordChar
      if isZonedTime time then some (.moment, (c :: more).dropWhile isWordChar) else none
    else
      let value ← word? front
      some (value, rest)
  | _ =>
    let value ← word? front
    some (value, rest)

end MachinePool.Toml
