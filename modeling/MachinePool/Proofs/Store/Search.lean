import MachinePool.Proofs.Journal.Reachable

/-!
A search is the conjunction of its fields.

What a field asks of a machine is said without looking at the other fields
(`Query.Asks`), and a machine matches a query exactly when every field gets what
it asks for (`matches?_iff`). That the four fields about the allocation are
matched behind one gate does not show: a machine without an allocation fails
each of them that asks for something, and a field that asks for nothing passes.

* `search_is_conjunction`: fields are matched one by one, merged queries find the
  intersection of what both find, and lists are matched as sets.
-/

namespace MachinePool

namespace Query

/-! ### Fields -/

inductive Field where
  | id
  | name
  | partition
  | size
  | rack
  | tags
  | allocated
  | project
  | allocationName
  | role
  | networks
  | availability
  | waiting
  | preallocated
  deriving DecidableEq, Repr

def only (q : Query) : Field → Query
  | .id => { id := q.id }
  | .name => { name := q.name }
  | .partition => { partition := q.partition }
  | .size => { size := q.size }
  | .rack => { rack := q.rack }
  | .tags => { tags := q.tags }
  | .allocated => { allocated := q.allocated }
  | .project => { project := q.project }
  | .allocationName => { allocationName := q.allocationName }
  | .role => { role := q.role }
  | .networks => { networks := q.networks }
  | .availability => { availability := q.availability }
  | .waiting => { waiting := q.waiting }
  | .preallocated => { preallocated := q.preallocated }

/-- The query that asks for what either of two queries asks for. -/
def merge (p q : Query) : Query where
  id := p.id.or q.id
  name := p.name.or q.name
  partition := p.partition.or q.partition
  size := p.size.or q.size
  rack := p.rack.or q.rack
  tags := p.tags ++ q.tags
  allocated := p.allocated.or q.allocated
  project := p.project.or q.project
  allocationName := p.allocationName.or q.allocationName
  role := p.role.or q.role
  networks := p.networks ++ q.networks
  availability := p.availability.or q.availability
  waiting := p.waiting.or q.waiting
  preallocated := p.preallocated.or q.preallocated

/-- No field that holds one value at most is populated in both queries. -/
structure Apart (p q : Query) : Prop where
  id : p.id = none ∨ q.id = none
  name : p.name = none ∨ q.name = none
  partition : p.partition = none ∨ q.partition = none
  size : p.size = none ∨ q.size = none
  rack : p.rack = none ∨ q.rack = none
  allocated : p.allocated = none ∨ q.allocated = none
  project : p.project = none ∨ q.project = none
  allocationName : p.allocationName = none ∨ q.allocationName = none
  role : p.role = none ∨ q.role = none
  availability : p.availability = none ∨ q.availability = none
  waiting : p.waiting = none ∨ q.waiting = none
  preallocated : p.preallocated = none ∨ q.preallocated = none

/-- What a field asks of a machine. -/
def Asks (q : Query) (m : Machine) : Field → Prop
  | .id => ∀ wanted ∈ q.id, wanted = m.id
  | .name => ∀ wanted ∈ q.name, wanted = m.name
  | .partition => ∀ wanted ∈ q.partition, wanted = m.partition
  | .size => ∀ wanted ∈ q.size, wanted = m.size
  | .rack => ∀ wanted ∈ q.rack, wanted = m.rack
  | .tags => ∀ tag ∈ q.tags, tag ∈ m.tags
  | .allocated => ∀ wanted ∈ q.allocated, wanted = m.allocation.isSome
  | .project => ∀ wanted ∈ q.project, ∃ a ∈ m.allocation, wanted = a.project
  | .allocationName => ∀ wanted ∈ q.allocationName, ∃ a ∈ m.allocation, wanted = a.name
  | .role => ∀ wanted ∈ q.role, ∃ a ∈ m.allocation, wanted = a.role
  | .networks => ∀ network ∈ q.networks, ∃ a ∈ m.allocation, ∃ x ∈ a.attachments, x.network = network
  | .availability => ∀ wanted ∈ q.availability, wanted = m.state.value
  | .waiting => ∀ wanted ∈ q.waiting, wanted = m.waiting
  | .preallocated => ∀ wanted ∈ q.preallocated, wanted = m.preallocated

variable {p q : Query} {m : Machine}

theorem Field.forall_iff {P : Field → Prop} :
    (∀ f, P f) ↔ P .id ∧ P .name ∧ P .partition ∧ P .size ∧ P .rack ∧ P .tags ∧ P .allocated ∧
      P .project ∧ P .allocationName ∧ P .role ∧ P .networks ∧ P .availability ∧ P .waiting ∧
      P .preallocated := by
  constructor
  · intro all
    exact ⟨all _, all _, all _, all _, all _, all _, all _, all _, all _, all _, all _, all _, all _,
      all _⟩
  · rintro ⟨id, name, partition, size, rack, tags, allocated, project, allocationName, role,
      networks, availability, waiting, preallocated⟩ f
    cases f <;> assumption

/-! ### Matching -/

/-- A value that is not wanted is met by anything. -/
theorem meets_iff {α : Type} [DecidableEq α] {wanted : Option α} {actual : α} :
    meets wanted actual = true ↔ ∀ w ∈ wanted, w = actual := by
  cases wanted <;> simp [meets]

/-- The four fields about the allocation, matched together, are matched one by one. -/
theorem matchesAllocation_iff :
    (!q.asksAllocation || m.allocation.any q.matchesAllocation) = true ↔
      q.Asks m .project ∧ q.Asks m .allocationName ∧ q.Asks m .role ∧ q.Asks m .networks := by
  cases held : m.allocation with
  | none =>
      have nothing : q.asksAllocation = false ↔
          q.project = none ∧ q.allocationName = none ∧ q.role = none ∧ q.networks = [] := by
        simp [asksAllocation, and_assoc]
      simp [Asks, held, nothing, Option.eq_none_iff_forall_not_mem, List.eq_nil_iff_forall_not_mem]
  | some a =>
      have unasked : q.asksAllocation = false → q.matchesAllocation a = true := by
        intro nothing
        simp_all [asksAllocation, matchesAllocation, meets]
      have gate : (!q.asksAllocation || q.matchesAllocation a) = true ↔
          q.matchesAllocation a = true := by
        cases asked : q.asksAllocation with
        | false => simp [unasked asked]
        | true => simp
      rw [Option.any_some, gate]
      simp [matchesAllocation, meets_iff, Asks, held, and_assoc]

/-- A machine matches a query when each field gets what it asks for. -/
theorem matches?_iff : q.matches? m = true ↔ ∀ f, q.Asks m f := by
  rw [Field.forall_iff]
  simp only [matches?, Bool.and_eq_true, matchesAllocation_iff, meets_iff, List.all_eq_true,
    List.contains_eq_mem, decide_eq_true_eq, and_assoc]
  rfl

/-- A query that keeps one field is matched by what the field asks for. -/
theorem only_matches?_iff {f : Field} : (q.only f).matches? m = true ↔ q.Asks m f := by
  rw [matches?_iff, Field.forall_iff]
  cases f <;> simp [only, Asks]

theorem forall_mem_or_iff {α : Type} {a b : Option α} (apart : a = none ∨ b = none)
    {P : α → Prop} : (∀ w ∈ a.or b, P w) ↔ (∀ w ∈ a, P w) ∧ ∀ w ∈ b, P w := by
  rcases apart with rfl | rfl <;> simp

/-- A field of merged queries asks for what it asks for in both. -/
theorem asks_merge_iff (apart : p.Apart q) (f : Field) :
    (p.merge q).Asks m f ↔ p.Asks m f ∧ q.Asks m f := by
  cases f with
  | id => exact forall_mem_or_iff apart.id
  | name => exact forall_mem_or_iff apart.name
  | partition => exact forall_mem_or_iff apart.partition
  | size => exact forall_mem_or_iff apart.size
  | rack => exact forall_mem_or_iff apart.rack
  | tags => exact List.forall_mem_append
  | allocated => exact forall_mem_or_iff apart.allocated
  | project => exact forall_mem_or_iff apart.project
  | allocationName => exact forall_mem_or_iff apart.allocationName
  | role => exact forall_mem_or_iff apart.role
  | networks => exact List.forall_mem_append
  | availability => exact forall_mem_or_iff apart.availability
  | waiting => exact forall_mem_or_iff apart.waiting
  | preallocated => exact forall_mem_or_iff apart.preallocated

/-- Merged queries are matched by what matches both. -/
theorem merge_matches?_iff (apart : p.Apart q) :
    (p.merge q).matches? m = true ↔ p.matches? m = true ∧ q.matches? m = true := by
  simp only [matches?_iff, asks_merge_iff apart, forall_and]

/-- What a machine without an allocation matches asks for nothing that only an allocation has. -/
theorem unasked_of_free (free : m.allocation = none) (found : q.matches? m = true) :
    q.project = none ∧ q.allocationName = none ∧ q.role = none ∧ q.networks = [] := by
  have asks := matches?_iff.mp found
  have project := asks .project
  have name := asks .allocationName
  have role := asks .role
  have networks := asks .networks
  simp only [Asks, free, Option.not_mem_none, false_and, exists_false] at project name role networks
  exact ⟨Option.eq_none_iff_forall_not_mem.mpr project, Option.eq_none_iff_forall_not_mem.mpr name,
    Option.eq_none_iff_forall_not_mem.mpr role, List.eq_nil_iff_forall_not_mem.mpr networks⟩

theorem asks_networks_iff :
    q.Asks m .networks ↔ q.networks = [] ∨
      ∃ a, m.allocation = some a ∧ ∀ network ∈ q.networks, ∃ x ∈ a.attachments, x.network = network := by
  cases held : m.allocation with
  | none => simp [Asks, held, List.eq_nil_iff_forall_not_mem]
  | some a =>
      simp only [Asks, held, Option.mem_def, Option.some.injEq, exists_eq_left']
      constructor
      · exact .inr
      · rintro (none | all)
        · simp [none]
        · exact all

/-- Lists with the same members ask for the same. -/
theorem matches?_of_same_members {tags networks : List String}
    (sameTags : ∀ tag, tag ∈ tags ↔ tag ∈ q.tags)
    (sameNetworks : ∀ network, network ∈ networks ↔ network ∈ q.networks) :
    ({ q with tags := tags, networks := networks } : Query).matches? m = q.matches? m := by
  rw [Bool.eq_iff_iff, matches?_iff, matches?_iff]
  refine forall_congr' fun f => ?_
  cases f with
  | tags => simp only [Asks, sameTags]
  | networks => simp only [Asks, sameNetworks]
  | _ => exact Iff.rfl

end Query

/-! ### Searching -/

namespace Store

variable {s : Store} {p q : Query}

/-- Machines are listed in the order of their ids. -/
theorem Reachable.sorted_ids (reached : s.Reachable) :
    s.listMachines.Pairwise fun a b => a.id < b.id := by
  refine List.pairwise_map.mpr (s.machines.sorted.imp_of_mem fun {a b} memA memB before => ?_)
  rw [reached.id_eq ((Table.mem_entries_iff s.machines).mp memA),
    reached.id_eq ((Table.mem_entries_iff s.machines).mp memB)]
  exact before

/-- A merged query finds what its first part finds, as far as the second one finds it too. -/
theorem search_merge (apart : p.Apart q) :
    s.search (p.merge q) = (s.search p).filter (· ∈ s.search q) := by
  have found : ∀ m ∈ s.listMachines, (m ∈ s.search q ↔ q.matches? m = true) := by
    intro m listed
    simp [search, listed]
  calc s.search (p.merge q)
      = s.listMachines.filter fun m => decide (m ∈ s.search q) && p.matches? m := by
        refine List.filter_congr fun m listed => ?_
        rw [Bool.eq_iff_iff, Query.merge_matches?_iff apart, Bool.and_eq_true, decide_eq_true_eq,
          found m listed, and_comm]
    _ = (s.search p).filter (· ∈ s.search q) := List.filter_filter.symm

theorem search_merge_sublist_right (apart : p.Apart q) :
    (s.search (p.merge q)).Sublist (s.search q) := by
  refine List.monotone_filter_right _ fun m found => ?_
  exact ((Query.merge_matches?_iff apart).mp found).2

end Store

/-- A machine matches a query exactly when it matches each field of it alone, and it matches a field
alone exactly when it is what the field asks for. A query that asks for something only an allocation
has matches no free machine, and lists ask for all of their members, whatever their order and however
often they come. Queries with no single value in common are merged to a query for what matches both,
and searching for it finds, in the order of the ids, what searching for each of them finds, and so
nothing that one of them does not find. -/
theorem search_is_conjunction :
    (∀ (q : Query) (m : Machine),
      (q.matches? m = true ↔ ∀ f, (q.only f).matches? m = true) ∧
      (∀ f, (q.only f).matches? m = true ↔ q.Asks m f) ∧
      (m.allocation = none →
        q.project ≠ none ∨ q.allocationName ≠ none ∨ q.role ≠ none ∨ q.networks ≠ [] →
        q.matches? m = false) ∧
      ((q.only .tags).matches? m = true ↔ ∀ tag ∈ q.tags, tag ∈ m.tags) ∧
      ((q.only .networks).matches? m = true ↔ q.networks = [] ∨ ∃ a, m.allocation = some a ∧
        ∀ network ∈ q.networks, ∃ x ∈ a.attachments, x.network = network) ∧
      ∀ tags networks, (∀ tag, tag ∈ tags ↔ tag ∈ q.tags) →
        (∀ network, network ∈ networks ↔ network ∈ q.networks) →
        ({ q with tags := tags, networks := networks } : Query).matches? m = q.matches? m) ∧
    ∀ p q : Query, p.Apart q →
      (∀ m, (p.merge q).matches? m = (p.matches? m && q.matches? m)) ∧
      ∀ s : Store, s.Reachable →
        s.search (p.merge q) = (s.search p).filter (· ∈ s.search q) ∧
        (s.search (p.merge q)).Pairwise (fun a b => a.id < b.id) ∧
        (s.search (p.merge q)).Sublist (s.search p) ∧
        (s.search (p.merge q)).Sublist (s.search q) := by
  constructor
  · intro q m
    refine ⟨?alone, fun f => Query.only_matches?_iff, ?free, Query.only_matches?_iff, ?networks,
      ?members⟩
    case alone =>
      simp only [Query.only_matches?_iff]
      exact Query.matches?_iff
    case free =>
      intro free asked
      rw [← Bool.not_eq_true]
      intro found
      obtain ⟨project, name, role, networks⟩ := Query.unasked_of_free free found
      simp [project, name, role, networks] at asked
    case networks => exact Query.only_matches?_iff.trans Query.asks_networks_iff
    case members => exact fun tags networks => Query.matches?_of_same_members
  · intro p q apart
    constructor
    · intro m
      rw [Bool.eq_iff_iff, Bool.and_eq_true]
      exact Query.merge_matches?_iff apart
    · intro s reached
      have merged := Store.search_merge (s := s) apart
      refine ⟨merged, reached.sorted_ids.filter _, ?_, Store.search_merge_sublist_right apart⟩
      rw [merged]
      exact List.filter_sublist

/-- Firewalls with a tag, merged with machines of a project that carry another tag, are the one
machine that is both; the free machine with both tags is none. -/
theorem tagged_firewall_found :
    let free : Machine := ⟨"m1", "", "p", "s", "r", ⟨.available, ""⟩, true, false, none,
      ["gpu", "ssd"], 0⟩
    let own : Allocation := ⟨"a", "c", "x", .firewall, [], [⟨"net", [], true, .external⟩], 0⟩
    let held := { free with id := "m3", allocation := some own }
    let s := (history [.register { held with allocation := none },
      .replace { held with changed := 1 } held, .register free,
      .register { free with id := "m2" }, .replace { held with id := "m2", changed := 1 }
        { held with id := "m2", tags := ["gpu"] }]).store
    let p : Query := { tags := ["gpu", "gpu"], role := some .firewall }
    let q : Query := { tags := ["ssd", "gpu"], project := some "x", networks := ["net"] }
    s.Reachable ∧ p.Apart q ∧ free.allocation = none ∧ q.project ≠ none ∧
    q.matches? free = false ∧ (p.only .role).matches? held = true ∧
    (p.merge q).matches? held = true ∧
    (s.search p).map (·.id) = ["m2", "m3"] ∧ (s.search q).map (·.id) = ["m3"] ∧
    s.search (p.merge q) = (s.search p).filter (· ∈ s.search q) ∧
    (s.search (p.merge q)).map (·.id) = ["m3"] ∧
    ({ p with tags := ["gpu"] } : Query).matches? held = p.matches? held := by
  intro free own held s p q
  have reached : s.Reachable := Store.reachable_history _
  have apart : p.Apart q := by constructor <;> decide
  obtain ⟨fields, merges⟩ := search_is_conjunction
  obtain ⟨-, -, gate, -⟩ := fields q free
  obtain ⟨-, asked, -, -, -, members⟩ := fields p held
  obtain ⟨both, found⟩ := merges p q apart
  obtain ⟨intersection, -⟩ := found s reached
  refine ⟨reached, apart, rfl, by decide, gate rfl (.inl (by decide)), ?_, ?_,
    by decide +kernel, by decide +kernel, intersection, ?_, ?_⟩
  · rw [asked]
    rintro wanted ⟨⟩
    exact ⟨own, rfl, rfl⟩
  · rw [both]
    decide
  · rw [intersection]
    decide +kernel
  · exact members ["gpu"] [] (by simp [p]) (by simp [p])

end MachinePool
