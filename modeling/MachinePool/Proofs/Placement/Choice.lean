import MachinePool.Allocation.Engine
import MachinePool.Proofs.Placement.Grouping

/-!
A choice among available machines always comes out, and it is one of them.

* `Placement.mem_of_mem_spread`, `Placement.mem_of_draw`: spreading picks among the
  available machines and drawing among the spread ones.
* `Placement.drawIndex_lt`: a drawn index is below the number of machines, also
  where a carry from the second word raises it.
* `Placement.spread_ne_nil`: some available machine keeps the project spread,
  unless none is available.
* `Store.exists_select`: so a selection fails only where there is no candidate.
-/

namespace MachinePool

variable {m : Machine}

namespace Placement

/-! ### Drawing -/

/-- The whole part of a product by a fraction of a word is below the factor, and where the rest is so
large that a carry could come, the next number is below it too. -/
theorem whole_lt {n w : Nat} (bound : w < UInt32.size) (positive : 0 < n) :
    w * n / UInt32.size < n ∧
      (UInt32.size - n < w * n % UInt32.size → w * n / UInt32.size + 1 < n) := by
  have product : w * n + n ≤ UInt32.size * n := by
    rw [← Nat.succ_mul]
    exact Nat.mul_le_mul_right n bound
  have parts : UInt32.size * (w * n / UInt32.size) + w * n % UInt32.size = w * n :=
    Nat.div_add_mod _ _
  have below : w * n / UInt32.size < n :=
    Nat.div_lt_of_lt_mul (by omega)
  refine ⟨below, fun large => ?_⟩
  by_contra reached
  have last : n = w * n / UInt32.size + 1 := by omega
  -- In the last interval the rest of the product leaves no room for a carry.
  have split : UInt32.size * n = UInt32.size * (w * n / UInt32.size) + UInt32.size := by
    conv_lhs => rw [last]
    exact Nat.mul_succ _ _
  omega

/-- An index is drawn below the number of machines. -/
theorem drawIndex_lt {n : Nat} (positive : 0 < n) (words : RandomWords) :
    (drawIndex n words).1 < n := by
  have bound : words.next.1.toNat < UInt32.size := UInt32.toNat_lt _
  obtain ⟨below, carried⟩ := whole_lt bound positive
  simp only [drawIndex]
  split
  · next large =>
      simp only
      split
      · exact carried large
      · exact below
  · exact below

theorem mem_of_draw {machines : List Machine} {words words' : RandomWords}
    (drawn : draw machines words = (some m, words')) : m ∈ machines := by
  cases machines with
  | nil => cases drawn
  | cons first rest => exact List.mem_of_getElem? (congrArg Prod.fst drawn)

/-- One of several machines is drawn. -/
theorem exists_draw {machines : List Machine} (nonempty : machines ≠ []) (words : RandomWords) :
    ∃ m words', draw machines words = (some m, words') := by
  cases machines with
  | nil => exact absurd rfl nonempty
  | cons first rest =>
      have inside : (drawIndex (first :: rest).length words).1 < (first :: rest).length :=
        drawIndex_lt (Nat.succ_pos _) words
      exact ⟨(first :: rest)[(drawIndex (first :: rest).length words).1], _,
        Prod.ext (List.getElem?_eq_getElem inside) rfl⟩

/-! ### Spreading -/

/-- Among some racks there is one that is elected. -/
theorem exists_elected {all : Grouping} (occupied : Grouping) (racks : all.keys ≠ []) :
    ∃ rack ∈ electRacks all occupied, rack ∈ all.keys := by
  unfold electRacks
  cases fewest : (all.keys.map occupied.count).min? with
  | none => simp [List.min?_eq_none_iff, racks] at fewest
  | some least =>
      obtain ⟨rack, mem, count⟩ := List.mem_map.mp (List.min?_mem fewest)
      exact ⟨rack, List.mem_filter.mpr ⟨mem, decide_eq_true count⟩, mem⟩

theorem mem_of_mem_spread {available project : List Machine} {tags : List String}
    (mem : m ∈ spread available project tags) : m ∈ available := by
  have placed : ∀ {keys : List String},
      m ∈ ((Grouping.byRack available).restrict keys).members → m ∈ available := by
    intro keys inside
    obtain ⟨rack, -, member⟩ := Grouping.exists_group_of_mem_members_restrict inside
    exact (Grouping.mem_group_byRack.mp member).1
  simp only [spread] at mem
  split at mem
  · exact placed mem
  · exact placed mem

/-- Where machines are available, a spread leaves some of them. -/
theorem spread_ne_nil {available : List Machine} (project : List Machine) (tags : List String)
    (nonempty : available ≠ []) : spread available project tags ≠ [] := by
  obtain ⟨first, mem⟩ := List.exists_mem_of_ne_nil _ nonempty
  have racks : (Grouping.byRack available).keys ≠ [] :=
    List.ne_nil_of_mem (Grouping.mem_keys_byRack.mpr ⟨first, mem, rfl⟩)
  obtain ⟨rack, elected, isRack⟩ :=
    exists_elected (Grouping.byRack (tagged project tags)) racks
  obtain ⟨m, among, inRack⟩ := Grouping.mem_keys_byRack.mp isRack
  have grouped : m ∈ (Grouping.byRack available).group rack :=
    Grouping.mem_group_byRack.mpr ⟨among, inRack⟩
  simp only [spread]
  split
  · exact Grouping.members_restrict_ne_nil elected grouped
  · assumption

end Placement

/-! ### Selecting -/

/-- Where there are candidates, a selection comes out. -/
theorem Store.exists_select {s : Store} {partition size : String} {machines : List Machine}
    (available : s.candidates partition size = .ok machines) (nonempty : machines ≠ [])
    (project : String) (tags : List String) (words : Placement.RandomWords) :
    ∃ m words', s.select project partition size tags words = .ok (m, words') := by
  obtain ⟨m, words', drawn⟩ := Placement.exists_draw
    (Placement.spread_ne_nil (s.search (Query.projectMachines project partition)) tags nonempty)
    words
  refine ⟨m, words', ?_⟩
  simp only [select, drawSpread, available, bind, Except.bind, drawn]

end MachinePool
