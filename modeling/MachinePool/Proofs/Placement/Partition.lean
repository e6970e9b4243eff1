import MachinePool.Proofs.Placement.Fairness
import Mathlib.Algebra.GroupWithZero.Nat

/-!
Groupings neither lose nor invent machines.

A machine that is added to a group, new or not, stands once more among the
machines of all groups (`Grouping.perm_flatten_add`). A grouping by racks adds every
machine once, so its groups divide the machines (`Grouping.perm_flatten_byRack`), and
the size of each is the number of machines in the rack. A grouping by tags divides
nothing: a machine with several tags stands in several groups, and with a repeated
tag more than once in one of them. The members list it once all the same.

* `grouping_keeps_each_machine_once`: all this for any machines with distinct ids
  and any keys.
-/

namespace MachinePool

open scoped List

variable {m : Machine} {machines : List Machine} {rack : String}

namespace Grouping

/-! ### The machines of all groups -/

/-- The machines of all groups are those of one group and those of the others. -/
theorem perm_flatten_erase (g : Grouping) (key : String) :
    g.values.flatten.Perm (g.group key ++ (g.erase key).values.flatten) := by
  cases found : g.get? key with
  | none => simp [group, found, Table.erase_of_absent found]
  | some machines => simpa [group, found] using (Table.perm_values_erase found).flatten

/-- A machine that is added stands once more among the machines of all groups. -/
theorem perm_flatten_add (g : Grouping) (key : String) (m : Machine) :
    (g.add key m).values.flatten.Perm (m :: g.values.flatten) := by
  have grown : (g.add key m).group key = g.group key ++ [m] := by
    rw [group_add, if_pos rfl]
  -- The other groups stay, whether the machine joins a group or begins one.
  have others : (g.add key m).erase key = g.erase key := Table.erase_insert g key _
  calc (g.add key m).values.flatten
    _ ~ (g.group key ++ [m]) ++ (g.erase key).values.flatten := by
        rw [← grown, ← others]
        exact perm_flatten_erase _ _
    _ = g.group key ++ m :: (g.erase key).values.flatten := by simp
    _ ~ m :: (g.group key ++ (g.erase key).values.flatten) := List.perm_middle
    _ ~ m :: g.values.flatten := (perm_flatten_erase g key).symm.cons m

/-- The groups of a grouping by racks hold all machines, each as often as it was given. -/
theorem perm_flatten_byRack (machines : List Machine) :
    (byRack machines).values.flatten.Perm machines := by
  induction machines using List.reverseRecOn with
  | nil => exact .nil
  | append_singleton machines m ih =>
      rw [byRack_concat]
      calc ((byRack machines).add m.rack m).values.flatten
        _ ~ m :: (byRack machines).values.flatten := perm_flatten_add _ _ _
        _ ~ m :: machines := ih.cons m
        _ ~ machines ++ [m] := (List.perm_append_singleton m machines).symm

/-- The sizes of the groups of a grouping by racks make up the number of machines. -/
theorem sum_sizes_byRack (machines : List Machine) :
    ((byRack machines).values.map List.length).sum = machines.length := by
  rw [← List.length_flatten]
  exact (perm_flatten_byRack machines).length_eq

/-! ### The group of a machine -/

/-- A machine lies in the group of its rack and in no other. -/
theorem existsUnique_group_byRack (listed : m ∈ machines) :
    ∃! rack, m ∈ (byRack machines).group rack := by
  refine ⟨m.rack, mem_group_byRack.mpr ⟨listed, rfl⟩, fun rack inside => ?_⟩
  exact (mem_group_byRack.mp inside).2.symm

/-- A rack without a group holds no machine, and no group is empty. -/
theorem count_byRack_eq_zero_iff :
    (byRack machines).count rack = 0 ↔ rack ∉ (byRack machines).keys := by
  rw [count_byRack, List.countP_eq_zero, mem_keys_byRack]
  simp

end Grouping

/-- Groupings neither lose nor invent machines. The members of the groups of some keys are, each once,
the machines whose rack is among the keys, and those with at least one of the keys as a tag. By rack
every machine stands once in all groups, and in one group only; the sizes of the groups make up the
number of machines, and the size for a rack is the number of machines in it, none where the rack has
no group. -/
theorem grouping_keeps_each_machine_once (ids : (machines.map (·.id)).Nodup)
    (keys : List String) :
    ((Grouping.byRack machines).restrict keys).members.Perm
      (machines.filter fun m => m.rack ∈ keys) ∧
    ((Grouping.byTags machines).restrict keys).members.Perm
      (machines.filter fun m => ∃ key ∈ keys, key ∈ m.tags) ∧
    (Grouping.byRack machines).values.flatten.Perm machines ∧
    (∀ m ∈ machines, ∃! rack, m ∈ (Grouping.byRack machines).group rack) ∧
    ((Grouping.byRack machines).values.map List.length).sum = machines.length ∧
    ∀ rack, (Grouping.byRack machines).count rack = machines.countP (·.rack = rack) ∧
      ((Grouping.byRack machines).count rack = 0 ↔ rack ∉ (Grouping.byRack machines).keys) := by
  have carrying : machines.filter (·.carries keys) =
      machines.filter fun m => ∃ key ∈ keys, key ∈ m.tags :=
    List.filter_congr fun m _ => by
      rw [Bool.eq_iff_iff, Machine.carries_iff, decide_eq_true_iff]
  refine ⟨Grouping.perm_members_byRack ids keys, ?tags, Grouping.perm_flatten_byRack machines,
    fun m listed => Grouping.existsUnique_group_byRack listed,
    Grouping.sum_sizes_byRack machines, fun rack => ⟨?size, ?absent⟩⟩
  case tags =>
    rw [← carrying]
    exact Grouping.perm_members_byTags ids keys
  case size => exact Grouping.count_byRack machines rack
  case absent => exact Grouping.count_byRack_eq_zero_iff

/-- The first machine stands in two groups by tags, in one of them twice, and is listed once; some keys
are repeated or name no group. -/
theorem repeatedly_tagged_machine_kept_once :
    let machines := [Machine.standing "1" "a" ["db", "ssd", "db"],
      Machine.standing "2" "b" ["ssd"], Machine.standing "3" "a" []]
    let keys := ["ssd", "a", "db", "a", "c"]
    (machines.map (·.id)).Nodup ∧
    ((Grouping.byRack machines).restrict keys).members.Perm
      [Machine.standing "1" "a" ["db", "ssd", "db"], Machine.standing "3" "a" []] ∧
    ((Grouping.byTags machines).restrict keys).members.Perm
      [Machine.standing "1" "a" ["db", "ssd", "db"], Machine.standing "2" "b" ["ssd"]] ∧
    (Grouping.byRack machines).values.flatten.Perm machines ∧
    (∃! rack, Machine.standing "3" "a" [] ∈ (Grouping.byRack machines).group rack) ∧
    ((Grouping.byRack machines).values.map List.length).sum = 3 ∧
    (Grouping.byRack machines).count "a" = 2 ∧ (Grouping.byRack machines).count "c" = 0 ∧
    "c" ∉ (Grouping.byRack machines).keys := by
  intro machines keys
  have ids : (machines.map (·.id)).Nodup := by decide
  have standing : machines.filter (fun m => m.rack ∈ keys) =
      [Machine.standing "1" "a" ["db", "ssd", "db"], Machine.standing "3" "a" []] := by decide
  have tagged : machines.filter (fun m => ∃ key ∈ keys, key ∈ m.tags) =
      [Machine.standing "1" "a" ["db", "ssd", "db"], Machine.standing "2" "b" ["ssd"]] := by decide
  have third : Machine.standing "3" "a" [] ∈ machines := by decide
  obtain ⟨byRack, byTags, all, one, sizes, counts⟩ := grouping_keeps_each_machine_once ids keys
  rw [standing] at byRack
  rw [tagged] at byTags
  have absent : (Grouping.byRack machines).count "c" = 0 := (counts "c").1
  exact ⟨ids, byRack, byTags, all, one _ third, sizes, (counts "a").1, absent,
    (counts "c").2.mp absent⟩

end MachinePool
