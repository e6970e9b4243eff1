import MachinePool.Proofs.Journal.Operation
import MachinePool.Proofs.Placement.Choice
import Mathlib.Algebra.Order.Floor.Div
import Mathlib.Data.Set.Card
import Mathlib.Order.Interval.Finset.Nat
import Mathlib.Tactic.Ring

/-!
Every machine is drawn as often as any other.

Two random words are the digits of a fraction of sixty-four bits. The index that
is drawn among `n` machines is the whole part of `n` times this fraction
(`drawIndex_eq`), though the second word is drawn only where the first one leaves
a rest to which it could add a carry. An index belongs to the fractions of an
interval (`mem_interval_iff`), and the intervals of all indices are equally long up to
one fraction, because their ends are the multiples of one length, rounded up
(`ceilDiv_sub_ceilDiv`).

* `drawn_evenly`: the drawn index is the whole part, it is below the number of
  machines, and every index stands for the same number of pairs of words up to
  rounding.
-/

namespace MachinePool.Placement

variable {n i w v x period : Nat}

/-! ### The index of a fraction -/

/-- The second digit of a fraction reaches the whole part of a product as a carry only. -/
theorem whole_eq (n w v : Nat) :
    n * (w * UInt32.size + v) / UInt64.size =
      w * n / UInt32.size + (w * n % UInt32.size + v * n / UInt32.size) / UInt32.size := by
  have positive : 0 < UInt32.size := by decide
  have digits : UInt64.size = UInt32.size * UInt32.size := by decide
  calc n * (w * UInt32.size + v) / UInt64.size
      = (v * n + w * n * UInt32.size) / UInt32.size / UInt32.size := by
        rw [digits, ← Nat.div_div_eq_div_mul]
        congr 2
        ring
    _ = (w * n + v * n / UInt32.size) / UInt32.size := by
        rw [Nat.add_mul_div_right _ _ positive, Nat.add_comm]
    _ = (UInt32.size * (w * n / UInt32.size) +
          (w * n % UInt32.size + v * n / UInt32.size)) / UInt32.size := by
        rw [← Nat.add_assoc, Nat.div_add_mod]
    _ = _ := Nat.mul_add_div positive _ _

/-- The index drawn among `n` machines is the whole part of `n` times the fraction of two words. -/
theorem drawIndex_eq (positive : 0 < n) (few : n ≤ UInt32.size) (words : RandomWords) :
    (drawIndex n words).1 =
      n * (words.next.1.toNat * UInt32.size + words.next.2.next.1.toNat) / UInt64.size := by
  rw [whole_eq]
  generalize second : words.next.2.next.1.toNat = v
  have word : v < UInt32.size := second ▸ UInt32.toNat_lt _
  have carried : v * n / UInt32.size < n :=
    Nat.div_lt_of_lt_mul (Nat.mul_lt_mul_of_pos_right word positive)
  have rest : words.next.1.toNat * n % UInt32.size < UInt32.size := Nat.mod_lt _ (by decide)
  -- The carry is one where it comes, and it comes only after a rest that asks for a second word.
  have carry : (words.next.1.toNat * n % UInt32.size + v * n / UInt32.size) / UInt32.size =
      if UInt32.size ≤ words.next.1.toNat * n % UInt32.size + v * n / UInt32.size
      then 1 else 0 := by
    split
    · exact Nat.div_eq_of_lt_le (by omega) (by omega)
    · exact Nat.div_eq_of_lt (by omega)
  rw [carry]
  simp only [drawIndex]
  split
  · simp only [second]
    split <;> rfl
  · rw [if_neg (by omega), Nat.add_zero]

/-- A second word is taken exactly where the rest of the first product leaves less than `n` to the
next whole number. -/
theorem drawIndex_words (n : Nat) (words : RandomWords) :
    (drawIndex n words).2 =
      if UInt32.size - n < words.next.1.toNat * n % UInt32.size then words.next.2.next.2
      else words.next.2 := by
  simp only [drawIndex]
  split <;> rfl

/-- A draw among some machines takes the one at the drawn index. -/
theorem draw_eq {machines : List Machine} (nonempty : machines ≠ []) (words : RandomWords) :
    draw machines words = (machines[(drawIndex machines.length words).1]?,
      (drawIndex machines.length words).2) := by
  cases machines with
  | nil => exact absurd rfl nonempty
  | cons first rest => rfl

/-! ### The fractions of an index -/

/-- The fractions that lead to an index are those of an interval. -/
theorem mem_interval_iff (positive : 0 < n) (period_pos : 0 < period) :
    i * period ⌈/⌉ n ≤ x ∧ x < (i + 1) * period ⌈/⌉ n ↔ n * x / period = i := by
  rw [ceilDiv_le_iff_le_mul positive, ← not_le, ceilDiv_le_iff_le_mul positive, not_le,
    Nat.div_eq_iff period_pos, Nat.add_one_mul]
  omega

/-- Rounded up, a sum lies above its first part by the second one, rounded one way or the other. -/
theorem ceilDiv_sub_ceilDiv (positive : 0 < n) (start period : Nat) :
    (start + period) ⌈/⌉ n - start ⌈/⌉ n = period / n ∨
      (start + period) ⌈/⌉ n - start ⌈/⌉ n = period ⌈/⌉ n := by
  have sum : (start + period) ⌈/⌉ n = start ⌈/⌉ n + period / n +
      if n ≤ (start + n - 1) % n + period % n then 1 else 0 := by
    rw [Nat.ceilDiv_eq_add_pred_div, Nat.ceilDiv_eq_add_pred_div, ← Nat.add_div positive]
    congr 1
    omega
  have last : n - 1 < n := Nat.sub_one_lt_of_lt positive
  have rounded : period ⌈/⌉ n =
      period / n + if n ≤ period % n + (n - 1) then 1 else 0 := by
    rw [Nat.ceilDiv_eq_add_pred_div, Nat.add_sub_assoc positive, Nat.add_div positive,
      Nat.div_eq_of_lt last, Nat.mod_eq_of_lt last, Nat.add_zero]
  have below : (start + n - 1) % n < n := Nat.mod_lt _ positive
  by_cases reached : n ≤ (start + n - 1) % n + period % n
  · right
    have remains : n ≤ period % n + (n - 1) := by omega
    rw [sum, rounded, if_pos reached, if_pos remains, Nat.add_assoc, Nat.add_sub_cancel_left]
  · left
    rw [sum, if_neg reached, Nat.add_zero, Nat.add_sub_cancel_left]

/-! ### The words of an index -/

/-- The fraction of two words, in units of its last bit. -/
def fraction (words : UInt32 × UInt32) : Nat := words.1.toNat * UInt32.size + words.2.toNat

/-- Different pairs of words are different fractions. -/
theorem fraction_injective : Function.Injective fraction := by
  rintro ⟨w, v⟩ ⟨w', v'⟩ same
  have word := v.toNat_lt
  have word' := v'.toNat_lt
  change w.toNat * 4294967296 + v.toNat = w'.toNat * 4294967296 + v'.toNat at same
  rw [Prod.mk.injEq, ← UInt32.toNat_inj, ← UInt32.toNat_inj]
  omega

/-- Every number of sixty-four bits is a fraction of two words. -/
theorem exists_fraction_eq (bound : x < UInt64.size) : ∃ words, fraction words = x := by
  refine ⟨(.ofNat (x / 4294967296), .ofNat (x % 4294967296)), ?_⟩
  change x < 18446744073709551616 at bound
  change (UInt32.ofNat _).toNat * 4294967296 + (UInt32.ofNat _).toNat = x
  rw [UInt32.toNat_ofNat', UInt32.toNat_ofNat']
  omega

/-- The pairs of words that lead to an index among `n` machines. -/
def wordsOf (n i : Nat) : Set (UInt32 × UInt32) :=
  {words | (drawIndex n ⟨[words.1, words.2], 0⟩).1 = i}

/-- The fractions that lead to an index are an interval. -/
theorem image_fraction_wordsOf (few : n ≤ UInt32.size) (inside : i < n) :
    fraction '' wordsOf n i =
      Finset.Ico (i * UInt64.size ⌈/⌉ n) ((i + 1) * UInt64.size ⌈/⌉ n) := by
  have positive : 0 < n := Nat.zero_lt_of_lt inside
  have drawn (words) : words ∈ wordsOf n i ↔ n * fraction words / UInt64.size = i := by
    rw [wordsOf, Set.mem_ofPred_eq, drawIndex_eq positive few]
    rfl
  ext x
  rw [Set.mem_image, Finset.mem_coe, Finset.mem_Ico, mem_interval_iff positive (by decide)]
  constructor
  · rintro ⟨words, mem, rfl⟩
    exact (drawn words).mp mem
  · intro whole
    have bound : x < UInt64.size := by
      by_contra beyond
      have reached : n ≤ n * x / UInt64.size :=
        (Nat.le_div_iff_mul_le (by decide)).mpr (Nat.mul_le_mul_left n (not_lt.mp beyond))
      omega
    obtain ⟨words, rfl⟩ := exists_fraction_eq bound
    exact ⟨words, (drawn words).mpr whole, rfl⟩

/-- Every index has as many pairs of words as any other, up to rounding. -/
theorem ncard_wordsOf (few : n ≤ UInt32.size) (inside : i < n) :
    (wordsOf n i).ncard = UInt64.size / n ∨ (wordsOf n i).ncard = UInt64.size ⌈/⌉ n := by
  have count : (wordsOf n i).ncard =
      (i * UInt64.size + UInt64.size) ⌈/⌉ n - i * UInt64.size ⌈/⌉ n := by
    rw [← Set.ncard_image_of_injective _ fraction_injective, image_fraction_wordsOf few inside,
      Set.ncard_coe_finset, Nat.card_Ico, Nat.add_one_mul]
  rw [count]
  exact ceilDiv_sub_ceilDiv (Nat.zero_lt_of_lt inside) _ _

/-! ### Even draws -/

/-- Whatever words a generator gives next, the machine drawn is the one at the whole part of the
number of machines times their fraction, which is below that number, and the second word is used up
only where the rest of the first product is large. Each index is drawn for as many pairs of words as
any other, up to rounding. -/
theorem drawn_evenly {machines : List Machine} (nonempty : machines ≠ [])
    (few : machines.length < UInt32.size) :
    let n := machines.length
    (∀ words : RandomWords,
      let w := words.next.1.toNat
      let v := words.next.2.next.1.toNat
      let index := n * (w * UInt32.size + v) / UInt64.size
      index < n ∧
      draw machines words = (machines[index]?,
        if UInt32.size - n < w * n % UInt32.size then words.next.2.next.2 else words.next.2)) ∧
    ∀ i < n, (wordsOf n i).ncard = UInt64.size / n ∨
      (wordsOf n i).ncard = UInt64.size ⌈/⌉ n := by
  intro n
  have positive : 0 < n := List.length_pos_of_ne_nil nonempty
  constructor
  · intro words w v index
    have drawn : (drawIndex n words).1 = index := drawIndex_eq positive few.le words
    constructor
    · rw [← drawn]
      exact drawIndex_lt positive words
    · rw [draw_eq nonempty, drawIndex_words]
      exact congrArg (fun i => (machines[i]?, _)) drawn
  · intro i inside
    exact ncard_wordsOf few.le inside

/-- A first word that leaves the largest rest and a second one that carries draw the second of three
machines, as do a third of all pairs of words. -/
theorem carry_draws_second_machine :
    let machines := ["a", "b", "c"].map Machine.idle
    machines ≠ [] ∧ machines.length < UInt32.size ∧
    draw machines ⟨[0x55555555, 0xffffffff], 0⟩ = (some (.idle "b"), ⟨[], 2⟩) ∧
    ((wordsOf 3 1).ncard = 6148914691236517205 ∨ (wordsOf 3 1).ncard = 6148914691236517206) := by
  intro machines
  have nonempty : machines ≠ [] := List.cons_ne_nil _ _
  have few : machines.length < UInt32.size := by decide
  obtain ⟨drawn, counted⟩ := drawn_evenly nonempty few
  obtain ⟨-, drawn⟩ := drawn ⟨[0x55555555, 0xffffffff], 0⟩
  have second : (wordsOf 3 1).ncard = UInt64.size / 3 ∨
      (wordsOf 3 1).ncard = UInt64.size ⌈/⌉ 3 := counted 1 (by decide)
  rw [Nat.ceilDiv_eq_add_pred_div] at second
  exact ⟨nonempty, few, drawn.trans (by decide), second⟩

end MachinePool.Placement
