import MachinePool.Text.Digits

/-!
White space as the Unicode property `White_Space` has it, and the words of a
line: the maximal runs of characters that are not white space.
-/

namespace MachinePool.Text

/-- The characters with the property `White_Space`. -/
def isBlank (c : Char) : Bool :=
  ('\t' ≤ c && c ≤ '\r') || c == ' ' || c == '\u0085' || c == '\u00a0' || c == '\u1680' ||
    ('\u2000' ≤ c && c ≤ '\u200a') || c == '\u2028' || c == '\u2029' || c == '\u202f' ||
    c == '\u205f' || c == '\u3000'

/-- The maximal runs of characters that are not white space: the fields between
blanks that are not empty. -/
def words (line : List Char) : List (List Char) :=
  (splitWhere isBlank line).filter (· ≠ [])

end MachinePool.Text
