/-!
Digits and fields of a text.

A numeral is a list of characters; `readDigits?` gives its value in a base and
`hexDigits` writes a number below 2¹⁶ without leading zeros. `split` cuts a
text at every separator, so a text always has at least one field.
-/

namespace MachinePool.Text

/-! ### Digits -/

def hexValue? (c : Char) : Option Nat :=
  if '0' ≤ c ∧ c ≤ '9' then some (c.toNat - '0'.toNat)
  else if 'a' ≤ c ∧ c ≤ 'f' then some (c.toNat - 'a'.toNat + 10)
  else if 'A' ≤ c ∧ c ≤ 'F' then some (c.toNat - 'A'.toNat + 10)
  else none

/-- The value of a digit in a base of at most sixteen. -/
def digitValue? (base : Nat) (c : Char) : Option Nat :=
  (hexValue? c).filter (· < base)

/-- The number whose digits are read so far as `acc`, continued by more digits. -/
def readDigitsFrom? (base : Nat) (acc : Nat) : List Char → Option Nat
  | [] => some acc
  | c :: cs => (digitValue? base c).bind fun d => readDigitsFrom? base (acc * base + d) cs

/-- The value of a numeral; the empty numeral has none. -/
def readDigits? (base : Nat) : List Char → Option Nat
  | [] => none
  | cs => readDigitsFrom? base 0 cs

def hexDigit (n : Nat) : Char :=
  if n < 10 then Char.ofNat ('0'.toNat + n) else Char.ofNat ('a'.toNat + (n - 10))

def upperHexDigit (n : Nat) : Char :=
  if n < 10 then Char.ofNat ('0'.toNat + n) else Char.ofNat ('A'.toNat + (n - 10))

def fourHexDigits (digit : Nat → Char) (n : Nat) : List Char :=
  [digit (n / 4096 % 16), digit (n / 256 % 16), digit (n / 16 % 16), digit (n % 16)]

/-- The digits of a number below 2¹⁶ without leading zeros. -/
def hexDigits (n : Nat) : List Char :=
  if n < 16 then [hexDigit n]
  else if n < 256 then [hexDigit (n / 16), hexDigit (n % 16)]
  else if n < 4096 then [hexDigit (n / 256), hexDigit (n / 16 % 16), hexDigit (n % 16)]
  else fourHexDigits hexDigit n

def hexNumeral (n : Nat) : List Char := Nat.toDigits 16 n

def decimalDigits (n : Nat) : List Char := Nat.toDigits 10 n

/-! ### Fields -/

/-- The fields of a text between the characters that satisfy a test. -/
def splitWhere (separates : Char → Bool) : List Char → List (List Char)
  | [] => [[]]
  | c :: cs =>
    if separates c then [] :: splitWhere separates cs
    else match splitWhere separates cs with
      | [] => [[c]]
      | field :: fields => (c :: field) :: fields

def split (separator : Char) (cs : List Char) : List (List Char) := splitWhere (· == separator) cs

theorem splitWhere_ne_nil (separates : Char → Bool) : ∀ cs, splitWhere separates cs ≠ []
  | [] => by simp [splitWhere]
  | c :: cs => by
    simp only [splitWhere]
    split
    · simp
    · split <;> simp

/-- A text without separators is one field. -/
theorem splitWhere_of_forall_not {separates : Char → Bool} :
    ∀ {cs : List Char}, (∀ c ∈ cs, separates c = false) → splitWhere separates cs = [cs]
  | [], _ => rfl
  | c :: cs, h => by
    have tail := splitWhere_of_forall_not fun d hd => h d (List.mem_cons_of_mem _ hd)
    simp [splitWhere, h c List.mem_cons_self, tail]

/-- The first field ends at the first separator. -/
theorem splitWhere_append_cons {separates : Char → Bool} {separator : Char}
    (separator_separates : separates separator = true) :
    ∀ {field : List Char} (rest : List Char), (∀ c ∈ field, separates c = false) →
      splitWhere separates (field ++ separator :: rest) = field :: splitWhere separates rest
  | [], rest, _ => by simp [splitWhere, separator_separates]
  | c :: cs, rest, h => by
    have tail := splitWhere_append_cons separator_separates rest
      fun d hd => h d (List.mem_cons_of_mem _ hd)
    simp [splitWhere, h c List.mem_cons_self, tail]

end MachinePool.Text
