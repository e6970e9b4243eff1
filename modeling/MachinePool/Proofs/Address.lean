import MachinePool.Proofs.Address.Spelling

/-!
The canonical text of an address is read back.

* `Address.spells_text`: the canonical text is one of the spellings of its address,
  with the longest run of zero groups as `::` and with the octets of an address
  that stands for an IPv4 one.
* `Address.ofText?_text`: so reading it gives the address.
* `Address.text_injective`: so no two addresses share a text, and a table with
  leases under the texts of their addresses keeps all of them apart.
-/

namespace MachinePool.Address

open Text

/-! ### Rows of groups -/

/-- The digits a group is written with spell it. -/
theorem spellsGroup_hexDigits (g : UInt16) : SpellsGroup g (hexDigits g.toNat) := by
  obtain ⟨zeros, digits⟩ := exists_replicate_zero_append_hexDigits g.toNat_lt
  constructor
  · unfold hexDigits fourHexDigits
    split_ifs <;> exact List.cons_ne_nil _ _
  · refine ⟨zeros, ?_⟩
    rw [← map_toLower_padded, digits, map_toLower_fourHexDigits]

theorem spellsGroup_groups (gs : List UInt16) :
    List.Forall₂ SpellsGroup gs (gs.map fun g => hexDigits g.toNat) := by
  induction gs with
  | nil => exact .nil
  | cons g gs ih => exact .cons (spellsGroup_hexDigits g) ih

/-! ### Runs of zeros -/

/-- A stretch of zero groups, with the number of groups before it. -/
def IsZeroRun (gs : List UInt16) (run : Nat × Nat) : Prop :=
  ∃ before after, gs = before ++ List.replicate run.2 0 ++ after ∧ before.length = run.1

theorem exists_leadingZeros (gs : List UInt16) :
    ∃ after, gs = List.replicate (leadingZeros gs) 0 ++ after := by
  refine ⟨gs.dropWhile (· = 0), ?_⟩
  have zeros : gs.takeWhile (· = 0) = List.replicate (leadingZeros gs) 0 :=
    List.eq_replicate_of_mem fun g mem => by
      simpa using List.all_eq_true.mp List.all_takeWhile g mem
  rw [← zeros, List.takeWhile_append_dropWhile]

theorem isZeroRun_longestZeroRunFrom {all front gs : List UInt16} {best : Nat × Nat}
    (cut : all = front ++ gs) (known : IsZeroRun all best) :
    IsZeroRun all (longestZeroRunFrom front.length best gs) := by
  induction gs generalizing front best with
  | nil => exact known
  | cons g gs ih =>
      obtain ⟨after, here⟩ := exists_leadingZeros (g :: gs)
      have found : IsZeroRun all (front.length, leadingZeros (g :: gs)) :=
        ⟨front, after, by rw [cut, List.append_assoc, ← here], rfl⟩
      have better : IsZeroRun all (if best.2 < leadingZeros (g :: gs) then
          (front.length, leadingZeros (g :: gs)) else best) := by
        split
        · exact found
        · exact known
      have next : all = (front ++ [g]) ++ gs := by simp [cut]
      simpa [longestZeroRunFrom] using ih next better

/-- The stretch that is left out consists of zero groups. -/
theorem isZeroRun_longestZeroRun (gs : List UInt16) : IsZeroRun gs (longestZeroRun gs) := by
  have start : gs = [] ++ gs := rfl
  exact isZeroRun_longestZeroRunFrom start ⟨[], gs, rfl, rfl⟩

/-- Eight groups are spelled by their shortened text. -/
theorem spells_shortened {gs : List UInt16} (eight : gs.length = 8) :
    Spells (.v6 ⟨gs, eight⟩) (shortened gs) := by
  obtain ⟨front, back, cut, start⟩ := isZeroRun_longestZeroRun gs
  unfold shortened
  cases run : longestZeroRun gs with
  | mk first zeros =>
      rw [run] at cut start
      simp only at cut start ⊢
      split
      · next several =>
          have positive : 0 < zeros := by omega
          have before : gs.take first = front := by simp [cut, ← start]
          have after : gs.drop (first + zeros) = back := by simp [cut, ← start]
          rw [before, after, List.append_assoc]
          simp only [cut]
          exact .gap positive (cut ▸ eight) (spellsGroup_groups front)
            (.of_forall₂ (spellsGroup_groups back))
      · exact .full eight (.of_forall₂ (spellsGroup_groups gs))

/-! ### Addresses that stand for octets -/

theorem pairGroup_octets (g : UInt16) :
    pairGroup (UInt8.ofNat (g.toNat / 256)) (UInt8.ofNat g.toNat) = g := by
  have small : g.toNat < 65536 := g.toNat_lt
  have parts : g.toNat / 256 % 256 * 256 + g.toNat % 256 = g.toNat := by omega
  simp [pairGroup, UInt8.toNat_ofNat', parts]

/-- A mapped address is spelled with four octets at its end. -/
theorem spells_mapped (high low : UInt16) :
    Spells (.v6 ⟨[0, 0, 0, 0, 0, 0xffff, high, low], rfl⟩)
      (groupsOrMappedText [0, 0, 0, 0, 0, 0xffff, high, low]) := by
  have ffff : SpellsGroup 0xffff ['f', 'f', 'f', 'f'] := group?_eq_some_iff.mp rfl
  have octets := SpellsRow.octets (UInt8.ofNat (high.toNat / 256)) (UInt8.ofNat high.toNat)
    (UInt8.ofNat (low.toNat / 256)) (UInt8.ofNat low.toNat)
  rw [pairGroup_octets, pairGroup_octets] at octets
  have fiveZeros : 0 < 5 := by decide
  have spelled : Spells (.v6 ⟨[0, 0, 0, 0, 0, 0xffff, high, low], rfl⟩) _ :=
    .gap fiveZeros rfl .nil (.cons ffff octets)
  simpa [groupsOrMappedText, List.intercalate] using spelled

/-! ### Reading back -/

/-- The canonical text of an address is one of its spellings. -/
theorem spells_text (a : Address) : Spells a a.text.toList := by
  cases a with
  | v4 a b c d =>
      rw [text, String.toList_ofList]
      exact .octets a b c d
  | v6 groups =>
      obtain ⟨gs, eight⟩ := groups
      rw [text, String.toList_ofList]
      by_cases mapped : ∃ high low, gs = [0, 0, 0, 0, 0, 0xffff, high, low]
      · obtain ⟨high, low, rfl⟩ := mapped
        exact spells_mapped high low
      · have plain : groupsOrMappedText gs = shortened gs := by
          unfold groupsOrMappedText
          split
          · next high low => exact absurd ⟨high, low, rfl⟩ mapped
          · rfl
        rw [plain]
        exact spells_shortened eight

/-- Reading the canonical text of an address gives the address. -/
theorem ofText?_text (a : Address) : ofText? a.text = some a :=
  ofText?_eq_some_iff.mpr a.spells_text

/-- No two addresses have the same canonical text. -/
theorem text_injective : Function.Injective text := by
  intro a b same
  have read := ofText?_text a
  rw [same, ofText?_text b] at read
  exact (Option.some.inj read).symm

end MachinePool.Address
