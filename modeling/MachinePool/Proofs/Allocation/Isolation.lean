import MachinePool.Proofs.Allocation.Uninterrupted
import MachinePool.Proofs.Placement.Fairness

/-!
What a project's allocations depend on.

A project sees the machines that are free and those it holds itself
(`Machine.visibleTo`). Stores are alike for it when they have the same networks,
leases and reports and show it the same machines (`Store.AlikeFor`); of the
machines of other projects they may hold any. A search for candidates finds free
machines and one for the project its own, so both find the same in both stores,
the same machine is drawn, and the record that binds it is again the same.

The times at which the project's machines were allocated are read through a
function, so that runs at different times can be compared as well.

* `Store.AlikeFor.allocate`: a placed allocation answers the same in both stores,
  and leaves them alike.
* `other_tenants_do_not_matter`: the same at one time and at different times.
-/

namespace MachinePool

variable {s t : Store} {m : Machine} {r : Request} {now now' : UInt64}
variable {project partition size : String} {tags : List String} {read : UInt64 → UInt64}
variable {words : Placement.RandomWords}

/-! ### What a project sees -/

namespace Machine

def visibleTo (m : Machine) (project : String) : Bool := m.isFree || m.project? = some project

/-- The machine with the time of its allocation read through a function. -/
def timed (m : Machine) (read : UInt64 → UInt64) : Machine :=
  { m with allocation := m.allocation.map fun a => { a with createdAt := read a.createdAt } }

@[simp] theorem timed_self (m : Machine) : m.timed (fun time => time) = m := by
  simp [timed]

/-- Only allocations have times, so a free machine stays as it is. -/
theorem timed_of_free (free : m.allocation = none) : m.timed read = m := by
  rw [timed, free, Option.map_none, ← free]

@[simp] theorem project?_timed : (m.timed read).project? = m.project? := by
  simp [project?, timed, Function.comp_def]

@[simp] theorem allocation_timed_eq_none_iff :
    (m.timed read).allocation = none ↔ m.allocation = none := by
  simp [timed]

@[simp] theorem visibleTo_timed : (m.timed read).visibleTo project = m.visibleTo project := by
  simp [visibleTo, isFree, timed, project?, Function.comp_def]

end Machine

namespace Store

/-- The machine a project sees under an id. -/
def seen (s : Store) (project : String) (read : UInt64 → UInt64) (id : String) : Option Machine :=
  ((s.machine? id).filter (·.visibleTo project)).map (·.timed read)

/-- Stores that differ for a project at most in the machines of other projects, and in how the times
of its own allocations are to be read. -/
structure AlikeFor (project : String) (read : UInt64 → UInt64) (s t : Store) : Prop where
  networks : s.networks = t.networks
  leases : s.leases = t.leases
  heartbeats : s.heartbeats = t.heartbeats
  machines : ∀ id, s.seen project read id = t.seen project read id

namespace AlikeFor

/-- A machine of another project under an id that is not seen changes nothing. -/
theorem of_foreign {foreign : Machine} (held : foreign.visibleTo project = false)
    (unused : s.seen project read foreign.id = none) :
    s.AlikeFor project read (s.putMachine foreign) where
  networks := rfl
  leases := rfl
  heartbeats := rfl
  machines id := by
    by_cases same : id = foreign.id
    · rw [same, unused, seen, machine?_putMachine_self]
      simp [Option.filter, held]
    · rw [seen, seen, machine?_putMachine, if_neg same]

/-! ### Searching -/

/-- The machines that pass a test are the same if only machines the project sees pass it. -/
theorem map_filter_listMachines (alike : s.AlikeFor project read t) {test : Machine → Bool}
    (visible : ∀ m, test m = true → m.visibleTo project = true)
    (timeless : ∀ m, test (m.timed read) = test m) :
    (s.listMachines.filter test).map (·.timed read) =
      (t.listMachines.filter test).map (·.timed read) := by
  have passing : ∀ found : Option Machine,
      (found.filter test).map (·.timed read) =
        ((found.filter (·.visibleTo project)).map (·.timed read)).filter test := by
    rintro (_ | m)
    · rfl
    · by_cases passes : test m = true
      · simp [Option.filter, passes, visible m passes, timeless]
      · by_cases seen : m.visibleTo project = true
        · simp [Option.filter, passes, seen, timeless]
        · simp [Option.filter, passes, seen]
  refine Table.map_filter_values_congr fun id => ?_
  rw [passing, passing]
  exact congrArg (Option.filter test) (alike.machines id)

/-- The machines that pass a test are the same if only free machines pass it. -/
theorem filter_listMachines (alike : s.AlikeFor project read t) {test : Machine → Bool}
    (free : ∀ m, test m = true → m.allocation = none) :
    s.listMachines.filter test = t.listMachines.filter test := by
  have timeless : ∀ m, test (m.timed read) = test m := by
    intro m
    by_cases isFree : m.allocation = none
    · rw [Machine.timed_of_free isFree]
    · have fails : test m = false := by
        rw [Bool.eq_false_iff]
        exact fun passes => isFree (free m passes)
      have timedFails : test (m.timed read) = false := by
        rw [Bool.eq_false_iff]
        exact fun passes => isFree (Machine.allocation_timed_eq_none_iff.mp (free _ passes))
      rw [fails, timedFails]
  have untimed : ∀ u : Store, (u.listMachines.filter test).map (·.timed read) =
      u.listMachines.filter test := by
    intro u
    refine (List.map_congr_left fun m mem => ?_).trans (List.map_id _)
    exact Machine.timed_of_free (free m (List.mem_filter.mp mem).2)
  have same := alike.map_filter_listMachines
    (fun m passes => by simp [Machine.visibleTo, Machine.isFree, free m passes]) timeless
  rwa [untimed, untimed] at same

/-- Alike stores offer the same machines. -/
theorem available_eq (alike : s.AlikeFor project read t) (partition size : String) :
    s.available partition size = t.available partition size := by
  have alive : t.isAlive = s.isAlive := by
    funext id
    simp only [isAlive, heartbeat?, alike.heartbeats]
  simp only [available, search, List.filter_filter, alive]
  refine alike.filter_listMachines fun m passes => ?_
  obtain ⟨-, -, free, -⟩ := matches_waitingCandidates_iff.mp (Bool.and_eq_true_iff.mp passes).2
  exact free

/-- In alike stores the project holds the same machines, their times read alike. -/
theorem map_search_projectMachines (alike : s.AlikeFor project read t) (partition : String) :
    (s.search (Query.projectMachines project partition)).map (·.timed read) =
      (t.search (Query.projectMachines project partition)).map (·.timed read) := by
  refine alike.map_filter_listMachines (fun m passes => ?_) fun m => ?_
  · obtain ⟨-, held⟩ := matches_projectMachines_iff.mp passes
    simp [Machine.visibleTo, held]
  · rw [Bool.eq_iff_iff, matches_projectMachines_iff, matches_projectMachines_iff,
      Machine.project?_timed]
    rfl

/-! ### Choosing a machine -/

/-- The racks hold as many machines of the project in both stores, and as many with a tag. -/
theorem spread_eq (alike : s.AlikeFor project read t) (reached : s.Reachable)
    (reached' : t.Reachable) (available : List Machine) (partition : String) (tags : List String) :
    Placement.spread available (s.search (Query.projectMachines project partition)) tags =
      Placement.spread available (t.search (Query.projectMachines project partition)) tags := by
  have ids : ∀ {u : Store}, u.Reachable →
      ((u.search (Query.projectMachines project partition)).map (·.id)).Nodup :=
    fun reached => reached.nodup_ids.sublist (List.filter_sublist.map _)
  have held : ∀ ms : List Machine, Placement.heldIn (ms.map (·.timed read)) =
      Placement.heldIn ms := by
    intro ms
    funext rack
    rw [Placement.heldIn, List.countP_map]
    rfl
  have tagged : ∀ ms : List Machine, Placement.taggedIn (ms.map (·.timed read)) tags =
      Placement.taggedIn ms tags := by
    intro ms
    funext rack
    rw [Placement.taggedIn, List.countP_map]
    rfl
  have same := alike.map_search_projectMachines partition
  refine Placement.spread_congr (ids reached) (ids reached') ?_ ?_
  · rw [← held, same, held]
  · rw [← tagged, same, tagged]

/-- In alike stores the same machine is selected for the project. -/
theorem select_eq (alike : s.AlikeFor project read t) (reached : s.Reachable)
    (reached' : t.Reachable) (partition size : String) (tags : List String)
    (words : Placement.RandomWords) :
    s.select project partition size tags words = t.select project partition size tags words := by
  simp only [select, drawSpread, candidates_eq, alike.available_eq,
    alike.spread_eq reached reached']

/-- Planning reads no machine, unless the request names one. -/
theorem prepare_eq (alike : s.AlikeFor project read t) (unnamed : r.namedMachine = none) :
    s.prepare r = t.prepare r := by
  have planned : ∀ partition, s.plan r partition s.superNetworks =
      t.plan r partition t.superNetworks := by
    intro partition
    obtain ⟨networks, leases, -, -⟩ := alike
    cases s
    cases t
    cases networks
    cases leases
    rfl
  simp only [prepare, targetPartition, unnamed, planned]

/-- The records that bind the chosen machine differ at most in their times. -/
theorem boundFor_eq (alike : s.AlikeFor r.project read t) (reached : s.Reachable)
    (reached' : t.Reachable) (unnamed : r.namedMachine = none) (clock : read now = read now')
    (words : Placement.RandomWords) :
    (s.boundFor now r words).map (·.timed read) = (t.boundFor now' r words).map (·.timed read) := by
  have chosen : ∀ partition, s.chooseFor r partition words = t.chooseFor r partition words := by
    intro partition
    simp only [chooseFor, unnamed, alike.select_eq reached reached']
  have times : ∀ (m : Machine) (plan : Plan),
      (m.boundTo (allocationOf now r plan) r.tags).timed read =
        (m.boundTo (allocationOf now' r plan) r.tags).timed read := by
    intro m plan
    simp only [Machine.timed, Machine.boundTo, allocationOf, Option.map_some, clock]
  unfold boundFor
  rw [alike.prepare_eq unnamed]
  cases t.prepare r with
  | error e => rfl
  | ok prepared =>
      obtain ⟨partition, plan⟩ := prepared
      simp only [bind, Except.bind, chosen]
      cases t.chooseFor r partition words with
      | error e => rfl
      | ok m => exact congrArg Except.ok (times m plan)

/-! ### Writing the machine -/

/-- Stores stay alike when records that are alike are written. -/
theorem putMachine (alike : s.AlikeFor project read t) {bound bound' : Machine}
    (same : bound.timed read = bound'.timed read) :
    (s.putMachine bound).AlikeFor project read (t.putMachine bound') where
  networks := alike.networks
  leases := alike.leases
  heartbeats := alike.heartbeats
  machines id := by
    have ids : (bound.timed read).id = (bound'.timed read).id := congrArg Machine.id same
    change bound.id = bound'.id at ids
    have visible : bound.visibleTo project = bound'.visibleTo project := by
      have timed := congrArg (·.visibleTo project) same
      rwa [Machine.visibleTo_timed, Machine.visibleTo_timed] at timed
    rw [seen, seen, machine?_putMachine, machine?_putMachine, ids]
    split
    · simp [Option.filter, visible, same]
    · exact alike.machines id

/-- A placed allocation answers the same in stores that are alike for its project, and leaves them
alike. -/
theorem allocate (alike : s.AlikeFor r.project read t) (reached : s.Reachable)
    (reached' : t.Reachable) (unnamed : r.namedMachine = none) (clock : read now = read now')
    (words : Placement.RandomWords) :
    (s.allocate now r words).1.map (·.timed read) = (t.allocate now' r words).1.map (·.timed read) ∧
      (s.allocate now r words).2.AlikeFor r.project read (t.allocate now' r words).2 := by
  have same := alike.boundFor_eq reached reached' unnamed clock words
  rw [allocate_eq reached, allocate_eq reached']
  cases first : s.boundFor now r words with
  | error e =>
      cases second : t.boundFor now' r words with
      | error e' =>
          rw [first, second] at same
          exact ⟨same, alike⟩
      | ok bound' => simp [first, second, Except.map] at same
  | ok bound =>
      cases second : t.boundFor now' r words with
      | error e' => simp [first, second, Except.map] at same
      | ok bound' =>
          rw [first, second] at same
          exact ⟨same, alike.putMachine (Except.ok.inj same)⟩

end AlikeFor

end Store

/-- Machines that other projects hold do not matter to a placed allocation. In two stores that agree
on the networks, the leases, the reports, the free machines and the machines of the project it
answers the same record or the same error, and the stores it leaves agree again; run at different
times, up to the times at which machines of the project were allocated. -/
theorem other_tenants_do_not_matter {s t : Store} (reached : s.Reachable) (reached' : t.Reachable)
    {r : Request} (unnamed : r.namedMachine = none) (words : Placement.RandomWords) :
    (s.AlikeFor r.project (fun time => time) t → ∀ now,
      (s.allocate now r words).1 = (t.allocate now r words).1 ∧
      (s.allocate now r words).2.AlikeFor r.project (fun time => time)
        (t.allocate now r words).2) ∧
    (s.AlikeFor r.project (fun _ => 0) t → ∀ now now',
      (s.allocate now r words).1.map (·.timed fun _ => 0) =
        (t.allocate now' r words).1.map (·.timed fun _ => 0) ∧
      (s.allocate now r words).2.AlikeFor r.project (fun _ => 0) (t.allocate now' r words).2) := by
  have whole : ∀ answer : Except AllocationError Machine,
      answer.map (·.timed fun time => time) = answer := by
    rintro (e | m)
    · rfl
    · exact congrArg Except.ok m.timed_self
  constructor
  · intro alike now
    have clock : now = now := rfl
    have outcome := alike.allocate reached reached' unnamed clock words
    rwa [whole, whole] at outcome
  · intro alike now now'
    exact alike.allocate reached reached' unnamed rfl words

/-- Calls that register two live machines in two racks, and a third one that a project gets with a
tag. -/
def Operation.twoRacks : List Operation :=
  [("a", "r"), ("b", "q"), ("own", "r")].flatMap (fun (id, rack) =>
    [.register { Machine.idle id with rack := rack }, .putHeartbeat ⟨id, .alive, 0⟩]) ++
  [.putNetwork ⟨"super", "", none, some "p", [], .privateSuper⟩,
    .putNetwork ⟨"net", "", some "x", some "p", [], .tenant "super" false⟩,
    .allocate 5 { Request.smallest with machine := some "own", tags := ["db"] } ⟨[], 0⟩]

/-- Calls by which another project gets a machine with two tags. -/
def Operation.foreignMachine : List Operation :=
  let free := { Machine.idle "f" with rack := "q" }
  [.register free, .claimMachine "f",
    .attach { free with preallocated := true, changed := 2 }
      ⟨"", "c", "other", .machine, [], [], 6⟩ ["db", "web"]]

/-- The machine of the other project stands in the rack that has none with the tag, and the machine
that is placed comes from there all the same. -/
theorem foreign_machine_does_not_matter :
    let s := (history Operation.twoRacks).store
    let t := (history (Operation.twoRacks ++ Operation.foreignMachine)).store
    let r := { Request.smallest with tags := ["db"] }
    s.Reachable ∧ t.Reachable ∧ s ≠ t ∧ r.namedMachine = none ∧
    s.AlikeFor "x" (fun time => time) t ∧ s.AlikeFor "x" (fun _ => 0) t ∧
    (s.allocate 7 r ⟨[], 0⟩).1.toOption.map (·.id) = some "b" ∧
    (s.allocate 7 r ⟨[], 0⟩).1 = (t.allocate 7 r ⟨[], 0⟩).1 ∧
    (s.allocate 7 r ⟨[], 0⟩).1.map (·.timed fun _ => 0) =
      (t.allocate 9 r ⟨[], 0⟩).1.map (·.timed fun _ => 0) := by
  intro s t r
  have reached : s.Reachable := Store.reachable_history _
  have reached' : t.Reachable := Store.reachable_history _
  have different : s ≠ t := by decide +kernel
  have unnamed : r.namedMachine = none := rfl
  have foreign : ∃ f : Machine, f.visibleTo "x" = false ∧ s.machine? f.id = none ∧
      s.putMachine f = t := by
    let attached := (Store.allocated { Machine.idle "f" with rack := "q" }
      ⟨"", "c", "other", .machine, [], [], 6⟩ ["db", "web"])
    refine ⟨{ attached with preallocated := true, changed := 3 }, ?_, ?_, ?_⟩ <;> decide +kernel
  have alike : ∀ read, s.AlikeFor "x" read t := by
    intro read
    obtain ⟨f, held, unused, same⟩ := foreign
    rw [← same]
    exact Store.AlikeFor.of_foreign held (by simp [Store.seen, unused])
  have placed : (s.allocate 7 r ⟨[], 0⟩).1.toOption.map (·.id) = some "b" := by decide +kernel
  obtain ⟨sameTime, anyTime⟩ := other_tenants_do_not_matter reached reached' unnamed ⟨[], 0⟩
  exact ⟨reached, reached', different, unnamed, alike _, alike _, placed,
    (sameTime (alike _) 7).1, (anyTime (alike _) 7 9).1⟩

end MachinePool
