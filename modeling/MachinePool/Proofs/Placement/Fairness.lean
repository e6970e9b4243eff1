import MachinePool.Proofs.Journal.Operation
import MachinePool.Proofs.Placement.Election
import Mathlib.Data.Set.Basic

/-!
Which machines keep a project spread.

The available machines stand in racks, and two numbers are known of each rack: how
many machines of the project it holds (`heldIn`), and how many that carry a
requested tag (`taggedIn`). The racks with the least of the first number and those
with the least of the second are elected apart. The fair racks (`fairRacks`) are
those elected twice, or where there is none those that the tags elect.

* `spread_eq_fair_racks`: what keeps the project spread are the available machines
  of the fair racks, each once, by rack and in the order in which they were given.
* `Placement.spread_congr`: of the project nothing but the two numbers counts.
-/

namespace MachinePool

variable {available project : List Machine}
variable {rack : String} {tags keys : List String}

namespace Placement

/-! ### Fair racks -/

def racksOf (machines : List Machine) : Set String := {rack | ∃ m ∈ machines, m.rack = rack}

/-- The racks of the available machines where a number is the least. -/
def leastRacks (available : List Machine) (number : String → Nat) : Set String :=
  {rack ∈ racksOf available | ∀ other ∈ racksOf available, number rack ≤ number other}

/-- How many machines of a project a rack holds. -/
def heldIn (project : List Machine) (rack : String) : Nat := project.countP (·.rack = rack)

/-- How many machines of a project with at least one of the tags a rack holds. -/
def taggedIn (project : List Machine) (tags : List String) (rack : String) : Nat :=
  project.countP fun m => m.rack = rack ∧ ∃ tag ∈ tags, tag ∈ m.tags

/-- The racks with the fewest tagged machines, and of these only those with the fewest machines of
the project if there are any. -/
def fairRacks (available project : List Machine) (tags : List String) : Set String :=
  let byProject := leastRacks available (heldIn project)
  let byTags := leastRacks available (taggedIn project tags)
  {rack ∈ byTags | (byProject ∩ byTags).Nonempty → rack ∈ byProject}

theorem mem_leastOccupied_iff_mem_leastRacks :
    rack ∈ leastOccupied available project ↔ rack ∈ leastRacks available (heldIn project) := by
  rw [mem_leastOccupied_iff]
  constructor
  · rintro ⟨standing, least⟩
    refine ⟨standing, ?_⟩
    rintro _ ⟨m, mem, rfl⟩
    exact least m mem
  · rintro ⟨standing, least⟩
    exact ⟨standing, fun m mem => least m.rack ⟨m, mem, rfl⟩⟩

/-- The tags elect by the machines that carry one of them, each counted once. -/
theorem heldIn_tagged (ids : (project.map (·.id)).Nodup) (tags : List String) :
    heldIn (tagged project tags) = taggedIn project tags := by
  funext rack
  rw [heldIn, taggedIn, (perm_tagged ids tags).countP_eq, List.countP_filter]
  refine List.countP_congr fun m _ => ?_
  simp [Machine.carries_iff]

theorem exists_mem_leastRacks (nonempty : available ≠ []) (project : List Machine) :
    ∃ rack, rack ∈ leastRacks available (heldIn project) := by
  obtain ⟨first, mem⟩ := List.exists_mem_of_ne_nil _ nonempty
  have racks : (Grouping.byRack available).keys ≠ [] :=
    List.ne_nil_of_mem (Grouping.mem_keys_byRack.mpr ⟨first, mem, rfl⟩)
  obtain ⟨rack, elected, -⟩ := exists_elected (Grouping.byRack project) racks
  exact ⟨rack, mem_leastOccupied_iff_mem_leastRacks.mp elected⟩

/-- Where no machine of the project carries a tag, the project elects alone. -/
theorem fairRacks_of_untagged (untagged : ∀ m ∈ project, ∀ tag ∈ tags, tag ∉ m.tags) :
    fairRacks available project tags = leastRacks available (heldIn project) := by
  have none : ∀ rack, taggedIn project tags rack = 0 := by
    intro rack
    rw [taggedIn, List.countP_eq_zero]
    intro m mem
    simpa using fun _ tag wanted => untagged m mem tag wanted
  have all : ∀ rack ∈ racksOf available, rack ∈ leastRacks available (taggedIn project tags) :=
    fun rack standing => ⟨standing, fun other _ => by rw [none, none]⟩
  ext rack
  constructor
  · rintro ⟨⟨⟨m, mem, -⟩, -⟩, agree⟩
    obtain ⟨elected, least⟩ := exists_mem_leastRacks (List.ne_nil_of_mem mem) project
    exact agree ⟨elected, least, all elected least.1⟩
  · intro least
    exact ⟨all rack least.1, fun _ => least⟩

/-! ### Spreading -/

/-- The racks both elections chose, or those the tags chose where these are none. -/
theorem spread_eq (available project : List Machine) (tags : List String) :
    spread available project tags =
      let members := fun keys => ((Grouping.byRack available).restrict keys).members
      let byTags := leastOccupied available (tagged project tags)
      let agreed := byTags.filter (leastOccupied available project).contains
      if members agreed = [] then members byTags else members agreed := rfl

theorem leastOccupied_congr {project' : List Machine} (same : heldIn project = heldIn project') :
    leastOccupied available project = leastOccupied available project' := by
  have counts : (Grouping.byRack project).count = (Grouping.byRack project').count := by
    funext rack
    rw [Grouping.count_byRack, Grouping.count_byRack]
    exact congrFun same rack
  rw [leastOccupied, leastOccupied, electRacks, electRacks, counts]

/-- Of the machines of a project only the two numbers of each rack count. -/
theorem spread_congr {project' : List Machine} (ids : (project.map (·.id)).Nodup)
    (ids' : (project'.map (·.id)).Nodup) (held : heldIn project = heldIn project')
    (tagged : taggedIn project tags = taggedIn project' tags) :
    spread available project tags = spread available project' tags := by
  rw [← heldIn_tagged ids, ← heldIn_tagged ids'] at tagged
  rw [spread_eq, spread_eq, leastOccupied_congr held, leastOccupied_congr tagged]

theorem fairRacks_of_common
    (common : (leastRacks available (heldIn project) ∩
      leastRacks available (taggedIn project tags)).Nonempty) :
    fairRacks available project tags =
      leastRacks available (heldIn project) ∩ leastRacks available (taggedIn project tags) := by
  ext rack
  constructor
  · rintro ⟨inTags, agree⟩
    exact ⟨agree common, inTags⟩
  · rintro ⟨inProject, inTags⟩
    exact ⟨inTags, fun _ => inProject⟩

theorem fairRacks_of_no_common
    (disjoint : ¬ (leastRacks available (heldIn project) ∩
      leastRacks available (taggedIn project tags)).Nonempty) :
    fairRacks available project tags = leastRacks available (taggedIn project tags) := by
  ext rack
  constructor
  · rintro ⟨inTags, -⟩
    exact inTags
  · intro inTags
    exact ⟨inTags, fun common => absurd common disjoint⟩

theorem mem_leastOccupied_tagged_iff (ids : (project.map (·.id)).Nodup) :
    rack ∈ leastOccupied available (tagged project tags) ↔
      rack ∈ leastRacks available (taggedIn project tags) := by
  rw [mem_leastOccupied_iff_mem_leastRacks, heldIn_tagged ids]

/-- The racks both elections chose. -/
theorem mem_agreed_iff (ids : (project.map (·.id)).Nodup) :
    rack ∈ (leastOccupied available (tagged project tags)).filter
        (leastOccupied available project).contains ↔
      rack ∈ leastRacks available (heldIn project) ∩
        leastRacks available (taggedIn project tags) := by
  rw [List.mem_filter, List.contains_iff_mem, mem_leastOccupied_tagged_iff ids,
    mem_leastOccupied_iff_mem_leastRacks]
  exact and_comm

/-- The machines of some racks of the available machines, rack by rack. -/
theorem exists_racks_of_restrict (ids : (available.map (·.id)).Nodup) {chosen : Set String}
    (elected : ∀ rack, rack ∈ keys ↔ rack ∈ chosen)
    (standing : ∀ rack ∈ chosen, rack ∈ racksOf available) :
    ∃ racks : List String, racks.Pairwise (· < ·) ∧ (∀ rack, rack ∈ racks ↔ rack ∈ chosen) ∧
      ((Grouping.byRack available).restrict keys).members =
        racks.flatMap fun rack => available.filter (·.rack = rack) := by
  refine ⟨(Grouping.byRack available).keys.filter keys.contains, (Table.keys_sorted _).filter _,
    fun rack => ?_, Grouping.members_restrict_byRack ids keys⟩
  rw [List.mem_filter, Grouping.mem_keys_byRack, List.contains_iff_mem, elected]
  constructor
  · rintro ⟨-, mem⟩
    exact mem
  · intro mem
    exact ⟨standing rack mem, mem⟩

theorem members_restrict_eq_nil_iff {chosen : Set String}
    (elected : ∀ rack, rack ∈ keys ↔ rack ∈ chosen)
    (standing : ∀ rack ∈ chosen, rack ∈ racksOf available) :
    ((Grouping.byRack available).restrict keys).members = [] ↔ ¬ chosen.Nonempty := by
  constructor
  · rintro none ⟨rack, mem⟩
    obtain ⟨m, listed, stands⟩ := standing rack mem
    have grouped := Grouping.mem_group_byRack.mpr ⟨listed, stands⟩
    exact Grouping.members_restrict_ne_nil ((elected rack).mpr mem) grouped none
  · intro nobody
    by_contra some
    obtain ⟨m, mem⟩ := List.exists_mem_of_ne_nil _ some
    obtain ⟨rack, kept, -⟩ := Grouping.exists_group_of_mem_members_restrict mem
    exact nobody ⟨rack, (elected rack).mp kept⟩

/-- The available machines that keep the project spread stand in the fair racks, rack by rack. -/
theorem exists_racks_of_spread (ids : (available.map (·.id)).Nodup)
    (projectIds : (project.map (·.id)).Nodup) (tags : List String) :
    ∃ racks : List String, racks.Pairwise (· < ·) ∧
      (∀ rack, rack ∈ racks ↔ rack ∈ fairRacks available project tags) ∧
      spread available project tags =
        racks.flatMap fun rack => available.filter (·.rack = rack) := by
  have agreed : ∀ rack, rack ∈ (leastOccupied available (tagged project tags)).filter
        (leastOccupied available project).contains ↔
      rack ∈ leastRacks available (heldIn project) ∩
        leastRacks available (taggedIn project tags) := fun _ => mem_agreed_iff projectIds
  have standing : ∀ rack ∈ leastRacks available (heldIn project) ∩
      leastRacks available (taggedIn project tags), rack ∈ racksOf available :=
    fun _ least => least.1.1
  rw [spread_eq]
  by_cases common : (leastRacks available (heldIn project) ∩
      leastRacks available (taggedIn project tags)).Nonempty
  · simp only [members_restrict_eq_nil_iff agreed standing, common, not_true, if_false]
    rw [fairRacks_of_common common]
    exact exists_racks_of_restrict ids agreed standing
  · simp only [members_restrict_eq_nil_iff agreed standing, common, not_false_eq_true, if_true]
    rw [fairRacks_of_no_common common]
    exact exists_racks_of_restrict ids (fun _ => mem_leastOccupied_tagged_iff projectIds)
      fun _ least => least.1

end Placement

/-- What keeps a project spread are the available machines of the fair racks, each once, by rack and
within a rack in the order in which they were given. There are some unless no machine is available,
and where no machine of the project carries a requested tag they are the machines of the racks that
hold the fewest of the project. -/
theorem spread_eq_fair_racks {available project : List Machine}
    (ids : (available.map (·.id)).Nodup) (projectIds : (project.map (·.id)).Nodup)
    (tags : List String) :
    (∃ racks : List String, racks.Pairwise (· < ·) ∧
      (∀ rack, rack ∈ racks ↔ rack ∈ Placement.fairRacks available project tags) ∧
      Placement.spread available project tags =
        racks.flatMap fun rack => available.filter (·.rack = rack)) ∧
    (Placement.spread available project tags = [] → available = []) ∧
    ((∀ m ∈ project, ∀ tag ∈ tags, tag ∉ m.tags) →
      ∀ m, m ∈ Placement.spread available project tags ↔
        m ∈ available ∧ m.rack ∈ Placement.leastRacks available (Placement.heldIn project)) := by
  obtain ⟨racks, sorted, fair, spread⟩ := Placement.exists_racks_of_spread ids projectIds tags
  refine ⟨⟨racks, sorted, fair, spread⟩, ?nonempty, ?untagged⟩
  case nonempty =>
    intro none
    by_contra some
    exact Placement.spread_ne_nil project tags some none
  case untagged =>
    intro untagged m
    simp [spread, fair, Placement.fairRacks_of_untagged untagged, and_comm]

def Machine.standing (id rack : String) (tags : List String) : Machine :=
  { Machine.idle id with rack := rack, tags := tags }

/-- The rack with the fewest machines of the project is the one with a tagged machine, so the two
others are fair; without tags that rack is the fair one. -/
theorem tags_overrule_project :
    let available := [("z", "c"), ("y", "a"), ("x", "b"), ("w", "a")].map fun (id, rack) =>
      Machine.standing id rack []
    let project := [Machine.standing "1" "a" [], Machine.standing "2" "a" ["log"],
      Machine.standing "3" "b" [], Machine.standing "4" "b" [],
      Machine.standing "5" "c" ["db", "web", "db"]]
    (available.map (·.id)).Nodup ∧ (project.map (·.id)).Nodup ∧
    (∃ racks : List String, racks.Pairwise (· < ·) ∧
      (∀ rack, rack ∈ racks ↔ rack ∈ Placement.fairRacks available project ["web", "db", "web"]) ∧
      [Machine.standing "y" "a" [], Machine.standing "w" "a" [], Machine.standing "x" "b" []] =
        racks.flatMap fun rack => available.filter (·.rack = rack)) ∧
    ∀ m, m = Machine.standing "z" "c" [] ↔
      m ∈ available ∧ m.rack ∈ Placement.leastRacks available (Placement.heldIn project) := by
  intro available project
  have ids : (available.map (·.id)).Nodup := by decide
  have projectIds : (project.map (·.id)).Nodup := by decide
  have tagged : Placement.spread available project ["web", "db", "web"] =
      [Machine.standing "y" "a" [], Machine.standing "w" "a" [], Machine.standing "x" "b" []] := by
    decide
  have untagged : Placement.spread available project [] = [Machine.standing "z" "c" []] := by
    decide
  obtain ⟨racks, -, -⟩ := spread_eq_fair_racks ids projectIds ["web", "db", "web"]
  obtain ⟨-, -, least⟩ := spread_eq_fair_racks ids projectIds []
  rw [tagged] at racks
  refine ⟨ids, projectIds, racks, fun m => ?_⟩
  rw [← least (by simp) m, untagged, List.mem_singleton]

end MachinePool
