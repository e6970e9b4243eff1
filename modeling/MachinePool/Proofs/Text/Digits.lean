import MachinePool.Text.Digits
import Mathlib.Data.List.Basic
import Mathlib.Data.List.Induction

/-!
Numerals and fields are read back.

A decimal numeral is read back whatever its length (`readDigits?_decimalDigits`),
and it is the only numeral of its number that does not start with a needless zero
(`eq_decimalDigits_of_readDigits?`). Four hexadecimal digits are read as the
number whose four digits they are, in either case (`readDigits?_sixteen_iff`). A
text is the row of its fields (`intercalate_split`), and fields without separators
are found again in a row of them (`split_intercalate`).
-/

namespace MachinePool.Text

variable {cs rest : List Char} {c : Char} {n d : Nat}

/-- A run of characters that pass a test ends before the first one that fails it. -/
theorem span_append {test : Char → Bool} (inside : ∀ c ∈ cs, test c = true)
    (ends : ∀ c ∈ rest.head?, test c = false) :
    (cs ++ rest).takeWhile test = cs ∧ (cs ++ rest).dropWhile test = rest := by
  rw [List.takeWhile_append_of_pos inside, List.dropWhile_append_of_pos inside]
  cases rest with
  | nil => simp
  | cons c rest => simp [ends c rfl]

/-! ### Digits -/

theorem toNat_lt_of_hexValue? (value : hexValue? c = some d) : c.toNat < 103 := by
  unfold hexValue? at value
  split_ifs at value with numeral lower upper
  · have : c.toNat ≤ 57 := numeral.2
    omega
  · have : c.toNat ≤ 102 := lower.2
    omega
  · have : c.toNat ≤ 70 := upper.2
    omega

/-- A hexadecimal digit of either case is the digit of its value. -/
theorem digit_of_hexValue? (value : hexValue? c = some d) :
    d < 16 ∧ c.toLower = hexDigit d ∧ (d < 10 → c = d.digitChar) := by
  have ascii : ∀ n < 103, (hexValue? (Char.ofNat n)).all (fun d =>
      d < 16 ∧ (Char.ofNat n).toLower = hexDigit d ∧ (d < 10 → Char.ofNat n = d.digitChar)) := by
    decide
  have digit := ascii c.toNat (toNat_lt_of_hexValue? value)
  rw [Char.ofNat_toNat, value] at digit
  exact of_decide_eq_true digit

/-- A decimal digit stands for one number, which is written with this digit. -/
theorem digitValue?_ten_iff : digitValue? 10 c = some d ↔ d < 10 ∧ c = d.digitChar := by
  constructor
  · intro value
    obtain ⟨value, small⟩ := Option.filter_eq_some_iff.mp value
    have small : d < 10 := of_decide_eq_true small
    obtain ⟨-, -, digit⟩ := digit_of_hexValue? value
    exact ⟨small, digit small⟩
  · rintro ⟨small, rfl⟩
    have digit : ∀ k < 10, digitValue? 10 k.digitChar = some k := by decide
    exact digit d small

/-- A hexadecimal digit stands for one number, in either case. -/
theorem digitValue?_sixteen_iff : digitValue? 16 c = some d ↔ d < 16 ∧ c.toLower = hexDigit d := by
  constructor
  · intro value
    obtain ⟨value, -⟩ := Option.filter_eq_some_iff.mp value
    obtain ⟨small, lower, -⟩ := digit_of_hexValue? value
    exact ⟨small, lower⟩
  · rintro ⟨small, lower⟩
    have ascii : ∀ n < 103, ∀ d < 16, (Char.ofNat n).toLower = hexDigit d →
        digitValue? 16 (Char.ofNat n) = some d := by decide +kernel
    have bound : c.toNat < 103 := by
      by_cases upper : c.val ≥ 'A'.val ∧ c.val ≤ 'Z'.val
      · have : c.toNat ≤ 90 := upper.2
        omega
      · have same : c.toLower = c := dif_neg upper
        rw [same] at lower
        have digits : ∀ k < 16, (hexDigit k).toNat < 103 := by decide
        exact lower ▸ digits d small
    have value := ascii c.toNat bound d small
    rw [Char.ofNat_toNat] at value
    exact value lower

theorem digitValue?_of_isDigit (digit : c.isDigit = true) :
    digitValue? 10 c = some (c.toNat - '0'.toNat) := by
  have bounds : 48 ≤ c.toNat ∧ c.toNat ≤ 57 := by
    simpa [Char.isDigit, UInt32.le_iff_toNat_le] using digit
  have ascii : ∀ n < 58, 48 ≤ n → digitValue? 10 (Char.ofNat n) = some (n - 48) := by decide
  have value := ascii c.toNat (by omega) bounds.1
  rwa [Char.ofNat_toNat] at value

/-! ### Decimal numerals -/

theorem readDigitsFrom?_of_isDigit (digits : ∀ c ∈ cs, c.isDigit = true) (acc : Nat) :
    readDigitsFrom? 10 acc cs = some (Nat.ofDigitChars 10 cs acc) := by
  induction cs generalizing acc with
  | nil => rfl
  | cons c cs ih =>
      obtain ⟨digit, others⟩ := List.forall_mem_cons.mp digits
      rw [readDigitsFrom?, digitValue?_of_isDigit digit, Option.bind_some, ih others,
        Nat.ofDigitChars_cons, Nat.mul_comm]

theorem readDigits?_of_isDigit (nonempty : cs ≠ []) (digits : ∀ c ∈ cs, c.isDigit = true) :
    readDigits? 10 cs = some (Nat.ofDigitChars 10 cs 0) := by
  cases cs with
  | nil => exact absurd rfl nonempty
  | cons c cs => exact readDigitsFrom?_of_isDigit digits 0

theorem decimalDigits_ne_nil (n : Nat) : decimalDigits n ≠ [] := Nat.toDigits_ne_nil

theorem isDigit_of_mem_decimalDigits (mem : c ∈ decimalDigits n) : c.isDigit = true :=
  Nat.isDigit_of_mem_toDigits (by decide) (by decide) mem

/-- A decimal numeral is read back. -/
theorem readDigits?_decimalDigits (n : Nat) : readDigits? 10 (decimalDigits n) = some n := by
  rw [readDigits?_of_isDigit (decimalDigits_ne_nil n) fun _ => isDigit_of_mem_decimalDigits]
  exact congrArg some Nat.ofDigitChars_ten_toDigits

/-- Only the numeral of zero starts with a zero. -/
theorem head?_decimalDigits_ne (positive : 0 < n) : (decimalDigits n).head? ≠ some '0' := by
  induction n using Nat.strongRecOn with
  | ind n ih =>
      rw [decimalDigits, Nat.toDigits_eq_if (by decide)]
      split
      · next small =>
          have digit : ∀ k < 10, 0 < k → k.digitChar ≠ '0' := by decide
          simpa using digit n small positive
      · next large =>
          rw [List.head?_append_of_ne_nil _ Nat.toDigits_ne_nil]
          exact ih (n / 10) (by omega) (by omega)

theorem readDigits?_concat (nonempty : cs ≠ []) (c : Char) :
    readDigits? 10 (cs ++ [c]) =
      (readDigits? 10 cs).bind fun m => (digitValue? 10 c).map (m * 10 + ·) := by
  have appended : ∀ (front : List Char) (acc : Nat), readDigitsFrom? 10 acc (front ++ [c]) =
      (readDigitsFrom? 10 acc front).bind fun m => (digitValue? 10 c).map (m * 10 + ·) := by
    intro front acc
    induction front generalizing acc with
    | nil => cases value : digitValue? 10 c <;> simp [readDigitsFrom?, value]
    | cons first front ih =>
        cases value : digitValue? 10 first <;> simp [readDigitsFrom?, value, ih]
  cases cs with
  | nil => exact absurd rfl nonempty
  | cons first cs => exact appended (first :: cs) 0

/-- A numeral without needless zeros is the numeral of its number. -/
theorem eq_decimalDigits_of_readDigits? (value : readDigits? 10 cs = some n)
    (noZeros : cs.head? = some '0' → cs.length = 1) : cs = decimalDigits n := by
  induction cs using List.reverseRecOn generalizing n with
  | nil => cases value
  | append_singleton cs c ih =>
      by_cases alone : cs = []
      · subst alone
        have value : digitValue? 10 c = some n := by
          simpa [readDigits?, readDigitsFrom?] using value
        obtain ⟨small, rfl⟩ := digitValue?_ten_iff.mp value
        exact (Nat.toDigits_of_lt_base small).symm
      · rw [readDigits?_concat alone] at value
        obtain ⟨m, front, last⟩ := Option.bind_eq_some_iff.mp value
        obtain ⟨d, digit, rfl⟩ := Option.map_eq_some_iff.mp last
        obtain ⟨small, rfl⟩ := digitValue?_ten_iff.mp digit
        have noZero : cs.head? ≠ some '0' := by
          intro zero
          have length := noZeros (by rw [List.head?_append_of_ne_nil _ alone, zero])
          exact alone (by simpa using length)
        have numeral : cs = decimalDigits m := ih front fun zero => absurd zero noZero
        have positive : 0 < m := by
          rw [Nat.pos_iff_ne_zero]
          rintro rfl
          exact noZero (by rw [numeral]; rfl)
        rw [numeral, decimalDigits, decimalDigits, ← Nat.toDigits_of_lt_base small,
          Nat.toDigits_append_toDigits (by decide) positive small, Nat.mul_comm]

/-! ### Four hexadecimal digits -/

/-- Four digits are read as the number they are the digits of, whatever their case. -/
theorem readDigits?_sixteen_iff (four : cs.length = 4) :
    readDigits? 16 cs = some n ↔ n < 65536 ∧ cs.map Char.toLower = fourHexDigits hexDigit n := by
  obtain ⟨a, b, c, d, rfl⟩ := List.length_eq_four.mp four
  constructor
  · intro value
    simp only [readDigits?, readDigitsFrom?, Option.bind_eq_some_iff, Option.some.injEq] at value
    obtain ⟨w, first, x, second, y, third, z, fourth, rfl⟩ := value
    obtain ⟨smallW, lowerA⟩ := digitValue?_sixteen_iff.mp first
    obtain ⟨smallX, lowerB⟩ := digitValue?_sixteen_iff.mp second
    obtain ⟨smallY, lowerC⟩ := digitValue?_sixteen_iff.mp third
    obtain ⟨smallZ, lowerD⟩ := digitValue?_sixteen_iff.mp fourth
    refine ⟨by omega, ?_⟩
    simp only [List.map_cons, List.map_nil, lowerA, lowerB, lowerC, lowerD, fourHexDigits]
    congr <;> omega
  · rintro ⟨small, digits⟩
    simp only [List.map_cons, List.map_nil, fourHexDigits, List.cons.injEq, and_true] at digits
    obtain ⟨lowerA, lowerB, lowerC, lowerD⟩ := digits
    have bound : ∀ k, k % 16 < 16 := fun k => Nat.mod_lt k (by decide)
    simp only [readDigits?, readDigitsFrom?, digitValue?_sixteen_iff.mpr ⟨bound _, lowerA⟩,
      digitValue?_sixteen_iff.mpr ⟨bound _, lowerB⟩, digitValue?_sixteen_iff.mpr ⟨bound _, lowerC⟩,
      digitValue?_sixteen_iff.mpr ⟨bound _, lowerD⟩, Option.bind_some, Option.some.injEq]
    omega

theorem map_toLower_fourHexDigits (n : Nat) :
    (fourHexDigits hexDigit n).map Char.toLower = fourHexDigits hexDigit n := by
  have lower : ∀ k < 16, (hexDigit k).toLower = hexDigit k := by decide
  simp [fourHexDigits, lower _ (Nat.mod_lt _ (by decide : 0 < 16))]

/-- Zeros before a numeral do not count. -/
theorem readDigits?_replicate_zero_append (zeros : Nat) (nonempty : cs ≠ []) :
    readDigits? 16 (List.replicate zeros '0' ++ cs) = readDigits? 16 cs := by
  have skipped : readDigitsFrom? 16 0 (List.replicate zeros '0' ++ cs) =
      readDigitsFrom? 16 0 cs := by
    induction zeros with
    | zero => rfl
    | succ zeros ih => exact ih
  cases cs with
  | nil => exact absurd rfl nonempty
  | cons c cs =>
      cases zeros with
      | zero => rfl
      | succ zeros => exact skipped

/-- A numeral without leading zeros is what is left of its four digits without some zeros. -/
theorem exists_replicate_zero_append_hexDigits (small : n < 65536) :
    ∃ zeros, List.replicate zeros '0' ++ hexDigits n = fourHexDigits hexDigit n := by
  have zero : hexDigit 0 = '0' := rfl
  unfold hexDigits fourHexDigits
  split_ifs with one two three
  · refine ⟨3, ?_⟩
    simp [List.replicate, show n / 4096 = 0 by omega, show n / 256 = 0 by omega,
      show n / 16 = 0 by omega, show n % 16 = n by omega, zero]
  · refine ⟨2, ?_⟩
    simp [List.replicate, show n / 4096 = 0 by omega, show n / 256 = 0 by omega,
      show n / 16 % 16 = n / 16 by omega, zero]
  · refine ⟨1, ?_⟩
    simp [List.replicate, show n / 4096 = 0 by omega, show n / 256 % 16 = n / 256 by omega, zero]
  · exact ⟨0, rfl⟩

/-! ### Fields -/

/-- A text is the row of its fields. -/
theorem intercalate_split (separator : Char) (cs : List Char) :
    [separator].intercalate (split separator cs) = cs := by
  unfold split
  induction cs with
  | nil => rfl
  | cons c cs ih =>
      unfold splitWhere
      by_cases separates : c = separator
      · subst separates
        rw [if_pos (by simp)]
        cases fields : splitWhere (· == c) cs with
        | nil => exact absurd fields (splitWhere_ne_nil _ cs)
        | cons field rest =>
            rw [List.intercalate_cons_cons, ← fields, ih]
            rfl
      · rw [if_neg (by simpa using separates)]
        cases fields : splitWhere (· == separator) cs with
        | nil => exact absurd fields (splitWhere_ne_nil _ cs)
        | cons field rest =>
            rw [fields] at ih
            cases rest with
            | nil => simpa [List.intercalate] using ih
            | cons next rest =>
                rw [List.intercalate_cons_cons] at ih ⊢
                simpa using ih

/-- Fields between separators are found again. -/
theorem split_intercalate {separator : Char} {fields : List (List Char)} (nonempty : fields ≠ [])
    (free : ∀ field ∈ fields, separator ∉ field) :
    split separator ([separator].intercalate fields) = fields := by
  have outside : ∀ {field : List Char}, separator ∉ field →
      ∀ c ∈ field, (c == separator) = false := by
    intro field absent c mem
    rw [beq_eq_false_iff_ne]
    rintro rfl
    exact absent mem
  induction fields with
  | nil => exact absurd rfl nonempty
  | cons field rest ih =>
      obtain ⟨first, others⟩ := List.forall_mem_cons.mp free
      cases rest with
      | nil => simpa [split, List.intercalate] using splitWhere_of_forall_not (outside first)
      | cons next rest =>
          have tail := ih (List.cons_ne_nil _ _) others
          have cut :
              split separator (field ++ separator :: [separator].intercalate (next :: rest)) =
                field :: split separator ([separator].intercalate (next :: rest)) :=
            @splitWhere_append_cons (· == separator) separator (by simp) field _ (outside first)
          rw [List.intercalate_cons_cons, List.append_assoc, List.singleton_append, cut, tail]

end MachinePool.Text
