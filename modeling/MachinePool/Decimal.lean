/-!
Decimal numbers against the range of double-precision floating point.

`overflows` judges a number by its exact value. `Scaled.overflows` judges it as
a reader does that keeps one 64-bit word of digits: the digits beyond the word
are dropped, the word and the power of ten are each rounded to a double, and
their product is what may leave the range. The two differ only for numbers next
to the end of the range.
-/

namespace MachinePool.Decimal

/-- The middle between the largest double and 2¹⁰²⁴: whatever reaches it rounds to infinity. -/
def overflowBound : Nat := Nat.pow 2 1024 - Nat.pow 2 970

/-- Whether `significand · 10 ^ exponent` rounds to infinity. -/
def overflows (significand : Nat) (exponent : Int) : Bool :=
  if significand = 0 then false
  else match exponent with
    | .ofNat e => 309 < e || overflowBound ≤ significand * Nat.pow 10 e
    | .negSucc e =>
      -- A numeral of at most `e` digits stands for less than 10 ^ (e + 1).
      if (Nat.toDigits 10 significand).length ≤ e then false
      else overflowBound * Nat.pow 10 (e + 1) ≤ significand

/-- The double nearest to a whole number within their range, the even one of two. -/
def nearestDouble (n : Nat) : Nat :=
  let unit := Nat.pow 2 (n.log2 + 1 - 53)
  let quotient := n / unit
  let rest := n % unit
  if unit < 2 * rest || (unit = 2 * rest && quotient % 2 = 1) then (quotient + 1) * unit
  else quotient * unit

/-! ### Numbers scaled to one word of digits -/

/-- The number `significand · 10 ^ exponent`, with a significand of one 64-bit word. -/
structure Scaled where
  significand : Nat
  exponent : Int
  deriving DecidableEq, Repr

namespace Scaled

/-- A word continued by digits for as long as it stays one, and the digits left over. -/
def append (significand : Nat) : List Char → Nat × List Char
  | [] => (significand, [])
  | c :: digits =>
    let next := significand * 10 + (c.toNat - '0'.toNat)
    if next < UInt64.size then append next digits else (significand, c :: digits)

/-- The number with the given digits before and after the point, times a power of ten. A digit
left over before the point counts as a zero, one left over after it counts for nothing. -/
def ofDigits (whole fraction : List Char) (exponent : Int) : Scaled :=
  let (significand, wholeLeft) := append 0 whole
  let (significand, fractionLeft) := append significand fraction
  ⟨significand, exponent + wholeLeft.length - (fraction.length - fractionLeft.length)⟩

/-- Whether the product of the two rounded factors rounds to infinity. A division by a power of
ten never does. -/
def overflows (s : Scaled) : Bool :=
  if s.significand = 0 then false
  else match s.exponent with
    | .ofNat e =>
      308 < e || overflowBound ≤ nearestDouble s.significand * nearestDouble (Nat.pow 10 e)
    | .negSucc _ => false

end Scaled

end MachinePool.Decimal
