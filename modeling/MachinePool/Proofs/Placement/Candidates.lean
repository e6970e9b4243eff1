import MachinePool.Proofs.Checks
import MachinePool.Proofs.Journal.Reachable
import MachinePool.Proofs.Placement.Choice

/-!
Which machines can be handed out, and when a selection finds one.

A candidate is a stored machine of the wanted partition and size that no tenant
has, that the operator lets go, that waits unclaimed and was last reported alive
(`IsCandidate`). `mem_available_iff` says that exactly these are searched,
`exists_select_iff` that a selection succeeds where there is one, and
`mem_spread_of_select` that it chooses one of those that keep the project spread.
A claim takes its machine out of the pool and no other (`isCandidate_putMachine_iff`).
-/

namespace MachinePool.Store

variable {s : Store} {m : Machine} {partition size project : String} {tags : List String}
variable {words words' : Placement.RandomWords}

/-- A machine that can be handed out for a partition and a size. -/
structure IsCandidate (s : Store) (partition size : String) (m : Machine) : Prop where
  stored : s.machine? m.id = some m
  partition : m.partition = partition
  size : m.size = size
  free : m.allocation = none
  available : m.state.value = .available
  waiting : m.waiting = true
  unclaimed : m.preallocated = false
  alive : ∃ h, s.heartbeat? m.id = some h ∧ h.liveliness = .alive

/-- The machines a search for candidates finds, in the order of their ids. -/
def available (s : Store) (partition size : String) : List Machine :=
  (s.search (Query.waitingCandidates partition size)).filter (s.isAlive ·.id)

theorem candidates_eq (s : Store) (partition size : String) :
    s.candidates partition size =
      if s.available partition size = [] then .error (.noMachineAvailable partition size)
      else .ok (s.available partition size) := by
  unfold candidates available
  split
  · next none => rw [if_pos none]
  · next some => rw [if_neg some]

/-- The candidates are the available machines, of which there has to be one. -/
theorem candidates_eq_ok_iff {found : List Machine} :
    s.candidates partition size = .ok found ↔ found = s.available partition size ∧ found ≠ [] := by
  rw [candidates_eq]
  split
  · next none => simp +contextual [none]
  · next some =>
      rw [Except.ok.injEq]
      constructor
      · rintro rfl
        exact ⟨rfl, some⟩
      · rintro ⟨rfl, -⟩
        rfl

/-- What the search for candidates asks of a machine. -/
theorem matches_waitingCandidates_iff :
    (Query.waitingCandidates partition size).matches? m = true ↔
      m.partition = partition ∧ m.size = size ∧ m.allocation = none ∧
        m.state.value = .available ∧ m.waiting = true ∧ m.preallocated = false := by
  simp only [Query.matches?, Query.waitingCandidates, Query.meets, Query.asksAllocation,
    Option.all_some, Option.all_none, Bool.and_eq_true, decide_eq_true_eq]
  constructor
  · rintro ⟨⟨⟨⟨⟨⟨⟨⟨⟨⟨-, -⟩, rfl⟩, rfl⟩, -⟩, -⟩, free⟩, -⟩, handed⟩, waiting⟩, unclaimed⟩
    exact ⟨rfl, rfl, by simpa using free.symm, handed.symm, waiting.symm, unclaimed.symm⟩
  · rintro ⟨rfl, rfl, free, handed, waiting, unclaimed⟩
    simp [free, handed, waiting, unclaimed]

/-- What the search for the machines of a project asks of a machine. -/
theorem matches_projectMachines_iff :
    (Query.projectMachines project partition).matches? m = true ↔
      m.partition = partition ∧ m.project? = some project := by
  have held : m.allocation.any (Query.projectMachines project partition).matchesAllocation = true ↔
      m.project? = some project := by
    unfold Machine.project?
    cases m.allocation <;>
      simp [Query.matchesAllocation, Query.projectMachines, Query.meets, eq_comm]
  simp only [Query.matches?, Query.asksAllocation, Bool.and_eq_true, Bool.or_eq_true, held]
  simp [Query.projectMachines, Query.meets, eq_comm]

theorem isAlive_iff {id : String} :
    s.isAlive id = true ↔ ∃ h, s.heartbeat? id = some h ∧ h.liveliness = .alive := by
  cases found : s.heartbeat? id <;> simp [isAlive, found]

/-- The available machines are the candidates. -/
theorem mem_available_iff (reached : s.Reachable) :
    m ∈ s.available partition size ↔ s.IsCandidate partition size m := by
  rw [available, List.mem_filter, mem_search, matches_waitingCandidates_iff, isAlive_iff]
  constructor
  · rintro ⟨⟨listed, inPartition, ofSize, free, handed, waiting, unclaimed⟩, alive⟩
    exact ⟨reached.stored_of_listed (mem_listMachines.mpr listed), inPartition, ofSize, free, handed,
      waiting, unclaimed, alive⟩
  · intro c
    exact ⟨⟨⟨m.id, c.stored⟩, c.partition, c.size, c.free, c.available, c.waiting, c.unclaimed⟩,
      c.alive⟩

/-- Candidates with one id are one candidate. -/
theorem IsCandidate.eq_of_id_eq {other : Machine} (c : s.IsCandidate partition size m)
    (c' : s.IsCandidate partition size other) (same : m.id = other.id) : m = other := by
  have stored := c.stored
  rw [same, c'.stored] at stored
  exact (Option.some.inj stored).symm

/-- A machine that is written as claimed is out of the pool, and the other candidates stay in it. -/
theorem isCandidate_putMachine_iff {taken : Machine} (claimed : taken.preallocated = true) :
    (s.putMachine taken).IsCandidate partition size m ↔
      s.IsCandidate partition size m ∧ m.id ≠ taken.id := by
  constructor
  · intro c
    have others : m.id ≠ taken.id := fun same => by
      have stored := c.stored
      rw [same, machine?_putMachine_self] at stored
      cases stored
      exact absurd c.unclaimed (by simp [claimed])
    have stored := c.stored
    rw [machine?_putMachine, if_neg others] at stored
    exact ⟨{ c with stored := stored }, others⟩
  · rintro ⟨c, others⟩
    exact { c with stored := by rw [machine?_putMachine, if_neg others]; exact c.stored }

/-! ### Selecting -/

/-- A selection finds a machine exactly when there is a candidate. -/
theorem exists_select_iff (reached : s.Reachable) :
    (∃ m words', s.select project partition size tags words = .ok (m, words')) ↔
      ∃ m, s.IsCandidate partition size m := by
  have listed : (∃ m, s.IsCandidate partition size m) ↔ s.available partition size ≠ [] := by
    constructor
    · rintro ⟨m, candidate⟩
      exact List.ne_nil_of_mem ((mem_available_iff reached).mpr candidate)
    · intro some
      obtain ⟨m, mem⟩ := List.exists_mem_of_ne_nil _ some
      exact ⟨m, (mem_available_iff reached).mp mem⟩
  have found := candidates_eq s partition size
  rw [listed]
  constructor
  · rintro ⟨m, words', selected⟩ none
    rw [if_pos none] at found
    simp [select, found, bind, Except.bind] at selected
  · intro some
    rw [if_neg some] at found
    exact exists_select found some project tags words

/-- What is selected keeps the project spread. -/
theorem mem_spread_of_select
    (selected : s.select project partition size tags words = .ok (m, words')) :
    m ∈ Placement.spread (s.available partition size)
      (s.search (Query.projectMachines project partition)) tags := by
  simp only [select, drawSpread, bind_eq_ok_iff] at selected
  obtain ⟨available, searched, drawn⟩ := selected
  obtain ⟨rfl, -⟩ := candidates_eq_ok_iff.mp searched
  split at drawn
  · next chosen =>
      cases drawn
      exact Placement.mem_of_draw chosen
  · cases drawn

/-- What is selected is a candidate. -/
theorem isCandidate_of_select (reached : s.Reachable)
    (selected : s.select project partition size tags words = .ok (m, words')) :
    s.IsCandidate partition size m :=
  (mem_available_iff reached).mp (Placement.mem_of_mem_spread (mem_spread_of_select selected))

end MachinePool.Store
