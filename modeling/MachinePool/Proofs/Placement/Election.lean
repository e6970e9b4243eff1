import MachinePool.Proofs.Placement.Choice

/-!
Which racks are elected, and by which machines.

The racks elected are those that hold the fewest machines (`mem_electRacks_iff`).
Among machines with distinct ids the tags elect by the machines that carry one of
them, each counted once (`perm_tagged`). A machine that keeps a project spread
stands in a rack that the tags elect, and in one that the project elects too if
there is such a rack (`racks_of_mem_spread`); so by the machines that weigh in the
choice its rack is among the least occupied (`least_of_mem_spread`).
-/

namespace MachinePool

variable {m other : Machine} {available project : List Machine}
variable {rack : String} {tags : List String}

namespace Placement

/-! ### Elections -/

theorem mem_electRacks_iff {all occupied : Grouping} :
    rack ∈ electRacks all occupied ↔
      rack ∈ all.keys ∧ ∀ other ∈ all.keys, occupied.count rack ≤ occupied.count other := by
  unfold electRacks
  cases fewest : (all.keys.map occupied.count).min? with
  | none =>
      have none : all.keys = [] := by simpa [List.min?_eq_none_iff] using fewest
      simp [none]
  | some least =>
      obtain ⟨among, below⟩ := List.min?_eq_some_iff.mp fewest
      obtain ⟨first, isFirst, rfl⟩ := List.mem_map.mp among
      rw [List.forall_mem_map] at below
      simp only [List.mem_filter, decide_eq_true_eq]
      refine and_congr_right fun mem => ⟨fun same => ?_, fun fewest => ?_⟩
      · rw [same]
        exact below
      · exact Nat.le_antisymm (fewest first isFirst) (below rack mem)

/-- Among machines with distinct ids the tags elect by those that carry one of them. -/
theorem perm_tagged (ids : (project.map (·.id)).Nodup) (tags : List String) :
    (tagged project tags).Perm (project.filter (·.carries tags)) :=
  Grouping.perm_members_byTags ids tags

/-- The racks of the available machines that hold the fewest of some machines. -/
def leastOccupied (available occupying : List Machine) : List String :=
  electRacks (Grouping.byRack available) (Grouping.byRack occupying)

theorem mem_leastOccupied_iff {occupying : List Machine} :
    rack ∈ leastOccupied available occupying ↔
      (∃ m ∈ available, m.rack = rack) ∧ ∀ m ∈ available,
        occupying.countP (·.rack = rack) ≤ occupying.countP (·.rack = m.rack) := by
  simp only [leastOccupied, mem_electRacks_iff, Grouping.mem_keys_byRack, Grouping.count_byRack]
  refine and_congr_right fun _ => ⟨fun least m mem => least m.rack ⟨m, mem, rfl⟩, ?_⟩
  rintro least _ ⟨m, mem, rfl⟩
  exact least m mem

/-- A machine that keeps the project spread stands in a rack that the tags elect, and in one that the
project elects too if there is one. -/
theorem racks_of_mem_spread (chosen : m ∈ spread available project tags) :
    m.rack ∈ leastOccupied available (tagged project tags) ∧
      ∀ rack ∈ leastOccupied available (tagged project tags),
        rack ∈ leastOccupied available project → m.rack ∈ leastOccupied available project := by
  have placed : ∀ {keys : List String},
      m ∈ ((Grouping.byRack available).restrict keys).members → m.rack ∈ keys := by
    intro keys inside
    obtain ⟨rack, kept, member⟩ := Grouping.exists_group_of_mem_members_restrict inside
    have standing : m.rack = rack := (Grouping.mem_group_byRack.mp member).2
    rwa [standing]
  simp only [spread] at chosen
  split at chosen
  · next disagreed =>
      refine ⟨placed chosen, fun rack byTags byProject => absurd disagreed ?_⟩
      obtain ⟨first, mem, inRack⟩ := (mem_leastOccupied_iff.mp byTags).1
      have agreed := List.mem_filter.mpr ⟨byTags, List.contains_iff_mem.mpr byProject⟩
      have grouped := Grouping.mem_group_byRack.mpr ⟨mem, inRack⟩
      exact Grouping.members_restrict_ne_nil agreed grouped
  · next agreed =>
      obtain ⟨byTags, byProject⟩ := List.mem_filter.mp (placed chosen)
      exact ⟨byTags, fun _ _ _ => List.contains_iff_mem.mp byProject⟩

/-! ### The machines that weigh in a choice -/

/-- The machines that weigh in a choice: of a project's machines those that carry one of the tags, or
all of them where no tags are given. -/
def weighing (project : List Machine) (tags : List String) : List Machine :=
  project.filter fun m => tags.isEmpty || m.carries tags

/-- No other available machine stands in a rack with fewer of the machines that weigh in the choice. -/
theorem least_of_mem_spread (ids : (project.map (·.id)).Nodup)
    (chosen : m ∈ spread available project tags) (mem : other ∈ available) :
    (weighing project tags).countP (·.rack = m.rack) ≤
      (weighing project tags).countP (·.rack = other.rack) := by
  obtain ⟨byTags, common⟩ := racks_of_mem_spread chosen
  cases tags with
  | nil =>
      -- Without tags every rack is elected by them, and so the project decides.
      have untagged : tagged project [] = [] := by
        simpa [Machine.carries] using perm_tagged ids []
      have all : ∀ rack, (∃ m ∈ available, m.rack = rack) →
          rack ∈ leastOccupied available (tagged project []) := fun rack standing =>
        mem_leastOccupied_iff.mpr ⟨standing, by simp [untagged]⟩
      have racks : (Grouping.byRack available).keys ≠ [] :=
        List.ne_nil_of_mem (Grouping.mem_keys_byRack.mpr ⟨other, mem, rfl⟩)
      obtain ⟨rack, elected, -⟩ := exists_elected (Grouping.byRack project) racks
      have byProject := common rack (all rack (mem_leastOccupied_iff.mp elected).1) elected
      simpa [weighing] using (mem_leastOccupied_iff.mp byProject).2 other mem
  | cons tag tags =>
      have counted : ∀ rack, (tagged project (tag :: tags)).countP (·.rack = rack) =
          (weighing project (tag :: tags)).countP (·.rack = rack) := fun rack =>
        (perm_tagged ids _).countP_eq _
      rw [← counted, ← counted]
      exact (mem_leastOccupied_iff.mp byTags).2 other mem

end Placement

end MachinePool
