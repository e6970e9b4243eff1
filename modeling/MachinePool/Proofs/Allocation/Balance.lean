import MachinePool.Proofs.Allocation.Outcome
import MachinePool.Proofs.Placement.Election

/-!
Placed allocations keep the racks balanced.

What the racks are balanced by is how many machines of a project they hold, or,
where the requests carry tags, how many that carry one of these (`occupancy`). An
allocation raises this number by one in one rack that still holds a candidate,
where no such rack has a lower one (`occupancy_allocate`); and no rack gets a
candidate that had none. So the fullest and the emptiest of these racks never get
further apart than they were, or than one (`rackGap_allocate_le`).

* `rackGap_le_of_placedRun`: this holds after any number of allocations.
-/

namespace MachinePool

variable {s after : Store} {m bound : Machine} {r : Request}
variable {project partition size rack : String} {tags more : List String}

/-! ### Occupancy -/

/-- Whether a machine weighs in the choice of a rack for a project: the project holds it in the
partition, and it carries one of the tags where tags are given. -/
def Machine.weighs (m : Machine) (project partition : String) (tags : List String) : Bool :=
  m.partition = partition && m.project? = some project && (tags.isEmpty || m.carries tags)

namespace Store

/-- The number of machines in a rack that weigh in the choice of a rack for a project. -/
def occupancy (s : Store) (project partition : String) (tags : List String) (rack : String) : Nat :=
  s.listMachines.countP fun m => m.rack = rack && m.weighs project partition tags

/-- The racks that still hold a candidate. -/
def openRacks (s : Store) (partition size : String) : List String :=
  (s.available partition size).map (·.rack)

/-- How far the fullest and the emptiest of the racks that still hold a candidate are apart. -/
def rackGap (s : Store) (project partition size : String) (tags : List String) : Nat :=
  let occupied := (s.openRacks partition size).map (s.occupancy project partition tags)
  occupied.max?.getD 0 - occupied.min?.getD 0

/-- A rack is open exactly when a candidate stands in it. -/
theorem mem_openRacks_iff (reached : s.Reachable) :
    rack ∈ s.openRacks partition size ↔ ∃ m, s.IsCandidate partition size m ∧ m.rack = rack := by
  simp only [openRacks, List.mem_map, mem_available_iff reached]

end Store

/-- The largest and the smallest of some numbers are as far apart as any two of them. -/
theorem max?_sub_min?_le_iff {numbers : List Nat} {gap : Nat} :
    numbers.max?.getD 0 - numbers.min?.getD 0 ≤ gap ↔
      ∀ a ∈ numbers, ∀ b ∈ numbers, a ≤ b + gap := by
  cases largest : numbers.max? with
  | none =>
      have none : numbers = [] := List.max?_eq_none_iff.mp largest
      simp [none]
  | some most =>
      obtain ⟨isMost, above⟩ := List.max?_eq_some_iff.mp largest
      obtain ⟨least, smallest⟩ := Option.isSome_iff_exists.mp (List.isSome_min?_of_mem isMost)
      obtain ⟨isLeast, below⟩ := List.min?_eq_some_iff.mp smallest
      simp only [smallest, Option.getD_some]
      constructor
      · intro close a memA b memB
        have aBelow := above a memA
        have bAbove := below b memB
        omega
      · intro close
        have ends := close most isMost least isLeast
        omega

/-- The gap is within a bound exactly when no open rack is fuller than another one by more. -/
theorem Store.rackGap_le_iff {gap : Nat} :
    s.rackGap project partition size tags ≤ gap ↔
      ∀ fuller ∈ s.openRacks partition size, ∀ emptier ∈ s.openRacks partition size,
        s.occupancy project partition tags fuller ≤
          s.occupancy project partition tags emptier + gap := by
  simp only [Store.rackGap, max?_sub_min?_le_iff, List.forall_mem_map]

/-! ### The choice of a rack -/

/-- The machines that weigh in a choice are those a placement looks at. -/
theorem Store.occupancy_eq (s : Store) (project partition : String) (tags : List String)
    (rack : String) :
    s.occupancy project partition tags rack =
      (Placement.weighing (s.search (Query.projectMachines project partition)) tags).countP
        (·.rack = rack) := by
  rw [Placement.weighing, search, List.countP_filter, List.countP_filter]
  refine List.countP_congr fun m _ => ?_
  simp only [Machine.weighs, Bool.and_eq_true, matches_projectMachines_iff, decide_eq_true_eq]
  tauto

/-- What is selected stands in a rack where no other rack that holds a candidate is less occupied. -/
theorem Store.occupancy_le_of_select {words words' : Placement.RandomWords} (reached : s.Reachable)
    (selected : s.select project partition size tags words = .ok (m, words'))
    (isOpen : rack ∈ s.openRacks partition size) :
    s.occupancy project partition tags m.rack ≤ s.occupancy project partition tags rack := by
  have ids : ((s.search (Query.projectMachines project partition)).map (·.id)).Nodup :=
    reached.nodup_ids.sublist (List.filter_sublist.map _)
  obtain ⟨other, mem, rfl⟩ := List.mem_map.mp isOpen
  rw [occupancy_eq, occupancy_eq]
  exact Placement.least_of_mem_spread ids (mem_spread_of_select selected) mem

/-! ### Writing over a machine -/

/-- A machine record that is written over counts no longer, and the one that is written counts. -/
theorem Store.countP_putMachine (found : s.machine? bound.id = some m) (test : Machine → Bool) :
    (s.putMachine bound).listMachines.countP test + (if test m then 1 else 0) =
      s.listMachines.countP test + if test bound then 1 else 0 := by
  have before := (Table.perm_values_erase found).countP_eq test
  have after := (Table.perm_values_erase (machine?_putMachine_self s bound)).countP_eq test
  rw [putMachine, Table.erase_insert] at after
  rw [List.countP_cons] at before after
  rw [listMachines, listMachines, putMachine, before, after]
  omega

theorem mem_mergeTags_iff {tag : String} :
    tag ∈ Store.mergeTags tags more ↔ tag ∈ tags ∨ tag ∈ more := by
  rw [mergeTags_eq, List.mem_append, List.mem_eraseDups, List.mem_filter, decide_eq_true_eq]
  tauto

/-- A machine weighs in once it is bound for a project with the tags of the request. -/
theorem Machine.weighs_boundTo (m : Machine) (a : Allocation) (tags : List String) :
    (m.boundTo a tags).weighs a.project m.partition tags = true := by
  have carries : tags.isEmpty || (m.boundTo a tags).carries tags := by
    cases tags with
    | nil => rfl
    | cons tag tags =>
        refine Machine.carries_iff.mpr ⟨tag, List.mem_cons_self, ?_⟩
        exact mem_mergeTags_iff.mpr (.inr List.mem_cons_self)
  rw [weighs, Bool.and_eq_true, Bool.and_eq_true]
  exact ⟨⟨decide_eq_true rfl, decide_eq_true rfl⟩, carries⟩

/-- A free machine weighs in for nobody. -/
theorem Machine.weighs_of_free (free : m.allocation = none) :
    m.weighs project partition tags = false := by
  simp [weighs, project?, free]

/-! ### Placed allocations -/

structure Request.Places (r : Request) (project partition size : String) (tags : List String) :
    Prop where
  unnamed : r.namedMachine = none
  project : r.project = project
  partition : r.partition = some partition
  size : r.size = some size
  tags : r.tags = tags

namespace Store

/-- A placed allocation binds the machine that is selected. -/
theorem exists_select_of_allocate (reached : s.Reachable)
    (places : r.Places project partition size tags) {now : UInt64}
    {words : Placement.RandomWords} (allocated : (s.allocate now r words).1 = .ok bound) :
    ∃ plan m words', s.select project partition size tags words = .ok (m, words') ∧
      m.boundTo (allocationOf now r plan) tags = bound := by
  obtain ⟨unnamed, rfl, inPartition, ofSize, rfl⟩ := places
  rw [allocate_eq_ok_iff reached] at allocated
  obtain ⟨target, plan, m, prepared, chosen, rfl⟩ := boundFor_eq_ok_iff.mp allocated
  obtain ⟨-, isTarget, -⟩ := prepare_eq_ok_iff.mp prepared
  have same : target = partition := by
    rw [IsTarget, unnamed, inPartition] at isTarget
    exact (Option.some.inj isTarget).symm
  subst same
  rw [chooseFor, unnamed, ofSize] at chosen
  obtain ⟨⟨m, words'⟩, selected, rfl⟩ := map_eq_ok_iff.mp chosen
  exact ⟨plan, m, words', selected, rfl⟩

/-- A placed allocation raises the occupancy of one rack by one. No rack that holds a candidate is
less occupied, and no rack gets a candidate. -/
theorem occupancy_allocate (reached : s.Reachable) (places : r.Places project partition size tags)
    {now : UInt64} {words : Placement.RandomWords}
    (allocated : (s.allocate now r words).1 = .ok bound) :
    let after := (s.allocate now r words).2
    (∀ rack, after.occupancy project partition tags rack =
      s.occupancy project partition tags rack + if bound.rack = rack then 1 else 0) ∧
    (∀ rack ∈ s.openRacks partition size,
      s.occupancy project partition tags bound.rack ≤ s.occupancy project partition tags rack) ∧
    ∀ rack ∈ after.openRacks partition size, rack ∈ s.openRacks partition size := by
  intro after
  have left : after = s.putMachine bound :=
    allocate_store reached ((allocate_eq_ok_iff reached).mp allocated)
  have nextReached : after.Reachable := reached.allocate now r words
  obtain ⟨plan, m, words', selected, rfl⟩ := exists_select_of_allocate reached places allocated
  have candidate := isCandidate_of_select reached selected
  have found : s.machine? (m.boundTo (allocationOf now r plan) tags).id = some m :=
    candidate.stored
  have least : ∀ rack ∈ s.openRacks partition size,
      s.occupancy project partition tags m.rack ≤ s.occupancy project partition tags rack :=
    fun rack => occupancy_le_of_select reached selected
  refine ⟨?raised, least, ?stays⟩
  case raised =>
    intro rack
    have weighs := Machine.weighs_boundTo m (allocationOf now r plan) tags
    rw [candidate.partition, show (allocationOf now r plan).project = project from places.project]
      at weighs
    have counted := countP_putMachine found fun m =>
      m.rack = rack && m.weighs project partition tags
    simp only [Machine.weighs_of_free candidate.free, weighs, Bool.and_false, Bool.and_true,
      Bool.false_eq_true, if_false, decide_eq_true_eq, Nat.add_zero, ← left] at counted
    exact counted
  case stays =>
    intro rack isOpen
    obtain ⟨other, candidate', inRack⟩ := (mem_openRacks_iff nextReached).mp isOpen
    rw [left, isCandidate_putMachine_iff rfl] at candidate'
    exact (mem_openRacks_iff reached).mpr ⟨other, candidate'.1, inRack⟩

/-- A placed allocation leaves the racks as far apart as they were, or by one. -/
theorem rackGap_allocate_le (reached : s.Reachable) (places : r.Places project partition size tags)
    {now : UInt64} {words : Placement.RandomWords}
    (allocated : (s.allocate now r words).1 = .ok bound) :
    (s.allocate now r words).2.rackGap project partition size tags ≤
      max 1 (s.rackGap project partition size tags) := by
  obtain ⟨raised, least, stays⟩ := occupancy_allocate reached places allocated
  have apart := rackGap_le_iff.mp (Nat.le_refl (s.rackGap project partition size tags))
  rw [rackGap_le_iff]
  intro fuller isFuller emptier isEmptier
  have before := apart fuller (stays fuller isFuller) emptier (stays emptier isEmptier)
  have below := least emptier (stays emptier isEmptier)
  rw [raised, raised]
  -- The rack that was raised had the least, so it is now at most one above any other.
  by_cases grown : bound.rack = fuller
  · subst grown
    rw [if_pos rfl]
    omega
  · rw [if_neg grown]
    omega

/-- A run of placed allocations for one project, partition, size and one list of tags, each of which
succeeds in the store that the one before it left. -/
inductive PlacedRun (project partition size : String) (tags : List String) : Store → Store → Prop
  | nothing (s : Store) : PlacedRun project partition size tags s s
  | allocation {s before : Store} {r : Request} {bound : Machine}
      (earlier : PlacedRun project partition size tags s before) (now : UInt64)
      (words : Placement.RandomWords) (places : r.Places project partition size tags)
      (allocated : (before.allocate now r words).1 = .ok bound) :
      PlacedRun project partition size tags s (before.allocate now r words).2

/-- Placed allocations lead from a reachable store to reachable ones. -/
theorem PlacedRun.reachable (reached : s.Reachable)
    (run : PlacedRun project partition size tags s after) : after.Reachable := by
  induction run with
  | nothing => exact reached
  | allocation _ now words _ _ ih => exact ih.allocate now _ words

end Store

/-- After any number of placed allocations, the fullest and the emptiest of the racks that still hold
a candidate are as far apart as they were before the first, or by one. -/
theorem rackGap_le_of_placedRun {s after : Store} (reached : s.Reachable)
    {project partition size : String} {tags : List String}
    (run : s.PlacedRun project partition size tags after) :
    after.rackGap project partition size tags ≤ max 1 (s.rackGap project partition size tags) := by
  induction run with
  | nothing => exact Nat.le_max_right _ _
  | allocation earlier now words places allocated ih =>
      have step := Store.rackGap_allocate_le (earlier.reachable reached) places allocated
      omega

/-- Calls that add a machine in each of two further racks to the small pool, and two more in its own
rack, where a project gets two machines with a tag. -/
def Operation.threeRacks : List Operation :=
  Operation.smallPool ++
    [("m2", "r"), ("m3", "r"), ("b", "b"), ("c", "c")].flatMap (fun (id, rack) =>
      [.register { Machine.idle id with rack := rack }, .putHeartbeat ⟨id, .alive, 0⟩]) ++
    ["m", "m2"].map fun id =>
      .allocate 0 { Request.smallest with machine := some id, tags := ["db"] } ⟨[], 0⟩

/-- Two more machines with the tag come from the two other racks, which have none left then. -/
theorem three_racks_balanced :
    let s := (history Operation.threeRacks).store
    let r := { Request.smallest with tags := ["db"] }
    let next := (s.allocate 0 r ⟨[], 0⟩).2
    let after := (next.allocate 0 r ⟨[], 0⟩).2
    s.Reachable ∧ s.PlacedRun "x" "p" "s" ["db"] after ∧
      s.rackGap "x" "p" "s" ["db"] = 2 ∧ next.rackGap "x" "p" "s" ["db"] = 2 ∧
      after.openRacks "p" "s" = ["r"] ∧ after.rackGap "x" "p" "s" ["db"] ≤ max 1 2 := by
  intro s r next after
  have reached : s.Reachable := Store.reachable_history _
  have places : r.Places "x" "p" "s" ["db"] := ⟨rfl, rfl, rfl, rfl, rfl⟩
  have succeeds : ∀ {x : Except AllocationError Machine}, x.isOk = true → ∃ m, x = .ok m := by
    rintro (_ | m) ok
    · cases ok
    · exact ⟨m, rfl⟩
  have firstOk : (s.allocate 0 r ⟨[], 0⟩).1.isOk = true := by decide +kernel
  have secondOk : (next.allocate 0 r ⟨[], 0⟩).1.isOk = true := by decide +kernel
  obtain ⟨first, allocated⟩ := succeeds firstOk
  obtain ⟨second, allocated'⟩ := succeeds secondOk
  have run : s.PlacedRun "x" "p" "s" ["db"] after :=
    ((Store.PlacedRun.nothing s).allocation 0 _ places allocated).allocation 0 _ places allocated'
  have before : s.rackGap "x" "p" "s" ["db"] = 2 := by decide +kernel
  have between : next.rackGap "x" "p" "s" ["db"] = 2 := by decide +kernel
  have left : after.openRacks "p" "s" = ["r"] := by decide +kernel
  exact ⟨reached, run, before, between, left, before ▸ rackGap_le_of_placedRun reached run⟩

end MachinePool
