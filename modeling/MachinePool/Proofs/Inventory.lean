import MachinePool.Inventory
import MachinePool.Proofs.Address
import MachinePool.Proofs.Store.Write
import MachinePool.Proofs.Table
import Mathlib.Data.List.TakeWhile

/-!
What loading an inventory means.

Each section of an inventory is put over a table of the store, one record after
another, so the last record with a key counts (`Table.get?_insertAll`). Machines
are registered instead of put, which moves the marker of a machine on by one for
every time it is listed (`Table.get?_registered`). Loading ends at the first
machine that a tenant holds: from there on nothing is put in place, and what came
before stays. Both cases are one equation (`Store.load_eq`), and everything that
is said of a load is read off it (`load_overrides`).
-/

namespace MachinePool

open Address

/-! ### The last record with a key -/

section LastWith

variable {α β κ : Type} [DecidableEq κ] {key : α → κ} {k : κ}

def lastWith (key : α → κ) (k : κ) (xs : List α) : Option α :=
  (xs.filter (key · = k)).getLast?

/-- A record listed last is the last one with its key. -/
theorem lastWith_concat (xs : List α) (x : α) :
    lastWith key k (xs ++ [x]) = if k = key x then some x else lastWith key k xs := by
  by_cases same : key x = k
  · simp [lastWith, same]
  · simp [lastWith, same, Ne.symm same]

theorem lastWith_map (f : β → α) (xs : List β) :
    lastWith key k (xs.map f) = (lastWith (key ∘ f) k xs).map f := by
  simp [lastWith, List.filter_map, Function.comp_def]

end LastWith

namespace Table

variable {α : Type}

/-- The table with records put under their own keys, one after another. -/
def insertAll (t : Table α) (key : α → String) (xs : List α) : Table α :=
  xs.foldl (fun t x => t.insert (key x) x) t

/-- Under each key stands the last record that was put there. -/
theorem get?_insertAll (t : Table α) (key : α → String) (xs : List α) (k : String) :
    (t.insertAll key xs).get? k = (lastWith key k xs).or (t.get? k) := by
  induction xs using List.reverseRecOn with
  | nil => rfl
  | append_singleton xs x ih =>
      rw [insertAll, List.foldl_append, List.foldl_cons, List.foldl_nil, get?_insert, ← insertAll,
        ih, lastWith_concat]
      split <;> rfl

/-- An entry is the only one with its key. -/
theorem lastWith_entries (t : Table α) (k : String) :
    lastWith (·.1) k t.entries = (t.get? k).map (k, ·) := by
  have only : t.entries.filter (·.1 = k) = ((t.get? k).map (k, ·)).toList := by
    refine eq_of_mem_iff_of_sorted (t.sorted.filter _) ?_ fun (key, value) => ?_
    · cases t.get? k <;> simp
    · rw [List.mem_filter, mem_entries_iff, Option.mem_toList, Option.map_eq_some_iff]
      constructor
      · rintro ⟨found, same⟩
        obtain rfl := of_decide_eq_true same
        exact ⟨value, found, rfl⟩
      · rintro ⟨_, found, same⟩
        cases same
        exact ⟨found, decide_eq_true rfl⟩
  rw [lastWith, only]
  cases t.get? k <;> rfl

end Table

/-! ### Registering one machine after another -/

namespace Store

/-- The marker of a stored record; before the first write of a machine it is zero. -/
def marker : Option Machine → UInt64
  | none => 0
  | some m => m.changed

@[simp] theorem marker_some (m : Machine) : marker (some m) = m.changed := rfl

theorem nextMarker_eq (stored : Option Machine) : nextMarker stored = marker stored + 1 := by
  cases stored <;> rfl

end Store

namespace Table

open Store (marker nextMarker)

variable (t : Table Machine) (machines : List Machine) (id : String)

/-- The table with machines registered one after another. -/
def registered : Table Machine :=
  machines.foldl (fun t m => t.insert m.id { m with changed := nextMarker (t.get? m.id) }) t

/-- A machine registered last follows on the marker of what was registered before. -/
theorem registered_concat (m : Machine) :
    t.registered (machines ++ [m]) = (t.registered machines).insert m.id
      { m with changed := marker ((t.registered machines).get? m.id) + 1 } := by
  rw [registered, List.foldl_append, List.foldl_cons, List.foldl_nil, Store.nextMarker_eq]
  rfl

/-- The marker of a machine moves on by one for every time it is listed. -/
theorem marker_registered :
    marker ((t.registered machines).get? id) =
      marker (t.get? id) + UInt64.ofNat (machines.countP (·.id = id)) := by
  induction machines using List.reverseRecOn with
  | nil => simp [registered]
  | append_singleton machines m ih =>
      rw [registered_concat, get?_insert]
      by_cases same : id = m.id
      · subst same
        simp [ih, UInt64.ofNat_add, UInt64.add_assoc]
      · simp [same, Ne.symm same, ih]

/-- Under each id stands the last machine that was registered with it. -/
theorem get?_registered :
    (t.registered machines).get? id =
      ((lastWith Machine.id id machines).map fun m =>
        { m with changed := marker (t.get? id) + UInt64.ofNat (machines.countP (·.id = id)) }).or
          (t.get? id) := by
  induction machines using List.reverseRecOn with
  | nil => rfl
  | append_singleton machines m ih =>
      rw [registered_concat, get?_insert, lastWith_concat]
      by_cases same : id = m.id
      · subst same
        -- The record before this one is void, but its marker is what the new one goes on from.
        simp [marker_registered, UInt64.ofNat_add, UInt64.add_assoc]
      · simp [same, Ne.symm same, ih]

end Table

/-! ### A load in one equation -/

/-- The failure of a load that comes to a machine a tenant holds. -/
def Machine.refusal (m : Machine) : LoadFailure :=
  ⟨m.id, .invalid m.id "a machine cannot be created when it is allocated"⟩

namespace Inventory

/-- The first machine of an inventory that a tenant holds. -/
def refused? (i : Inventory) : Option Machine := i.machines.find? (!·.isFree)

/-- What a load puts in place: networks and leases, the machines before the first one that a tenant
holds, and the health reports if there is none. -/
def applied (i : Inventory) : Inventory :=
  { i with
    machines := i.machines.takeWhile (·.isFree)
    liveliness := if i.refused?.isNone then i.liveliness else .empty }

end Inventory

namespace Store

variable (s : Store) (clock : String → UInt64) (i : Inventory)

/-- Machines are registered up to the first that a tenant holds. -/
theorem registerAll_eq_registered (machines : List Machine) :
    s.registerAll machines = ((machines.find? (!·.isFree)).map (·.refusal),
      { s with machines := s.machines.registered (machines.takeWhile (·.isFree)) }) := by
  induction machines generalizing s with
  | nil => rfl
  | cons m machines ih =>
      cases held : m.allocation with
      | some a =>
          have taken : m.isFree = false := by simp [Machine.isFree, held]
          simp [registerAll, register, held, taken, Machine.refusal, Table.registered]
      | none =>
          have free : m.isFree = true := by simp [Machine.isFree, held]
          have first : s.register m = .ok (_, s.putMachine _) :=
            register_eq_ok_iff.mpr ⟨free, rfl, rfl⟩
          simp only [registerAll, first, ih, free, List.find?_cons, List.takeWhile_cons,
            Bool.not_true]
          rfl

/-- A load writes each section over its own table. -/
theorem load_eq :
    s.load clock i = (i.refused?.map (·.refusal),
      { networks := s.networks.insertAll Network.id i.networks
        leases := s.leases.insertAll Lease.key i.leases
        machines := s.machines.registered i.applied.machines
        heartbeats := s.heartbeats.insertAll Heartbeat.machine
          (i.applied.liveliness.entries.map fun r => ⟨r.1, r.2, clock r.1⟩) }) := by
  -- Each section is written to one table only, so its fold over stores is one over that table.
  have networks : i.networks.foldl putNetwork s =
      { s with networks := s.networks.insertAll Network.id i.networks } :=
    List.foldl_hom (fun t => { s with networks := t }) fun _ _ => rfl
  have leases (s : Store) : i.leases.foldl putLease s =
      { s with leases := s.leases.insertAll Lease.key i.leases } :=
    List.foldl_hom (fun t => { s with leases := t }) fun _ _ => rfl
  have reports (s : Store) (entries : List (String × Liveliness)) : s.reportAll clock entries =
      { s with heartbeats := s.heartbeats.insertAll Heartbeat.machine
                 (entries.map fun r => ⟨r.1, r.2, clock r.1⟩) } := by
    rw [reportAll, Table.insertAll, List.foldl_map]
    refine List.foldl_hom (fun t => { s with heartbeats := t }) fun _ _ => ?_
    rfl
  rw [load, networks, leases, registerAll_eq_registered]
  cases refused : i.machines.find? (!·.isFree) with
  | none => simp [Inventory.refused?, Inventory.applied, refused, reports]
  | some m => simp [Inventory.refused?, Inventory.applied, refused, Table.insertAll]; rfl

/-! ### The store after a load -/

variable {s clock i} {after again : Store} {later : String → UInt64}

/-- `after` has the records of an inventory over those of `before`. Of several records with one key
the last one counts, the marker of a machine has moved on by one for every time it is listed, and
what is not listed is as it was. -/
structure Overridden (before : Store) (clock : String → UInt64) (i : Inventory) (after : Store) : Prop where
  network : ∀ id, after.network? id =
    (lastWith Network.id id i.networks).or (before.network? id)
  lease : ∀ key, after.leases.get? key =
    (lastWith Lease.key key i.leases).or (before.leases.get? key)
  machine : ∀ id, after.machine? id =
    ((lastWith Machine.id id i.machines).map fun m => { m with
      changed := marker (before.machine? id) + UInt64.ofNat (i.machines.countP (·.id = id)) }).or
        (before.machine? id)
  heartbeat : ∀ id, after.heartbeat? id =
    ((i.liveliness.get? id).map fun l => ⟨id, l, clock id⟩).or (before.heartbeat? id)

/-- A load puts the part of the inventory that is applied over the store. -/
theorem overridden_load (s : Store) (clock : String → UInt64) (i : Inventory) :
    s.Overridden clock i.applied (s.load clock i).2 where
  network id := by
    rw [load_eq]
    exact Table.get?_insertAll ..
  lease key := by
    rw [load_eq]
    exact Table.get?_insertAll ..
  machine id := by
    rw [load_eq]
    exact Table.get?_registered ..
  heartbeat id := by
    rw [load_eq, heartbeat?, Table.get?_insertAll, lastWith_map]
    change ((lastWith (·.1) id i.applied.liveliness.entries).map _).or _ = _
    rw [Table.lastWith_entries, Option.map_map]
    rfl

/-- Leases go by the address, however it is spelled. -/
theorem Overridden.lease? (overridden : s.Overridden clock i after) (a : Address) :
    after.lease? a = (lastWith Lease.address a i.leases).or (s.lease? a) := by
  have sameText (l : Lease) : l.key = a.text ↔ l.address = a := text_injective.eq_iff
  have byAddress : lastWith Lease.key a.text i.leases = lastWith Lease.address a i.leases := by
    simp only [lastWith, sameText]
  rw [Store.lease?, overridden.lease, byAddress]
  rfl

/-- The store without the markers of its machines and the times of its reports. -/
def unstamped (s : Store) : Store :=
  { s with
    machines := s.machines.mapKeyed fun _ m => { m with changed := 0 }
    heartbeats := s.heartbeats.mapKeyed fun _ h => { h with time := 0 } }

/-- Having the same records put over it again leaves a store as it is, apart from markers and
times. -/
theorem Overridden.unstamped_eq (first : s.Overridden clock i after)
    (second : after.Overridden later i again) : again.unstamped = after.unstamped := by
  have networks : again.networks = after.networks := by
    refine Table.ext_get? fun id => ?_
    change again.network? id = after.network? id
    rw [second.network, first.network, ← Option.or_assoc, Option.or_self]
  have leases : again.leases = after.leases := by
    refine Table.ext_get? fun key => ?_
    rw [second.lease, first.lease, ← Option.or_assoc, Option.or_self]
  have machines : again.unstamped.machines = after.unstamped.machines := by
    refine Table.ext_get? fun id => ?_
    rw [unstamped, unstamped, Table.get?_mapKeyed, Table.get?_mapKeyed]
    change (again.machine? id).map _ = (after.machine? id).map _
    rw [second.machine, first.machine]
    cases lastWith Machine.id id i.machines <;> rfl
  have heartbeats : again.unstamped.heartbeats = after.unstamped.heartbeats := by
    refine Table.ext_get? fun id => ?_
    rw [unstamped, unstamped, Table.get?_mapKeyed, Table.get?_mapKeyed]
    change (again.heartbeat? id).map _ = (after.heartbeat? id).map _
    rw [second.heartbeat, first.heartbeat]
    cases i.liveliness.get? id <;> rfl
  calc again.unstamped
    _ = ⟨again.unstamped.machines, again.networks, again.leases, again.unstamped.heartbeats⟩ := rfl
    _ = after.unstamped := by rw [machines, networks, leases, heartbeats]; rfl

end Store

namespace Inventory

variable {i : Inventory} {m : Machine}

/-- No machine is refused exactly when no tenant holds one of them. -/
theorem refused?_eq_none_iff : i.refused? = none ↔ ∀ m ∈ i.machines, m.allocation = none := by
  simp [refused?, Machine.isFree]

theorem applied_of_free (free : i.refused? = none) : i.applied = i := by
  have all : i.machines.takeWhile (·.isFree) = i.machines := by
    rw [List.takeWhile_eq_self_iff]
    simpa [refused?] using free
  simp [applied, free, all]

/-- A machine that a tenant holds cuts an inventory short. -/
theorem applied_of_refused (refused : i.refused? = some m) :
    ∃ front behind, i.machines = front ++ m :: behind ∧ (∀ m' ∈ front, m'.allocation = none) ∧
      m.allocation ≠ none ∧ i.applied = { i with machines := front, liveliness := .empty } := by
  obtain ⟨held, front, behind, listed, free⟩ := List.find?_eq_some_iff_append.mp refused
  have taken : m.isFree = false := by simpa using held
  have untaken : ∀ m' ∈ front, m'.isFree = true := by simpa using free
  have kept : i.machines.takeWhile (·.isFree) = front := by
    rw [listed, List.takeWhile_append_of_pos untaken]
    simp [taken]
  refine ⟨front, behind, listed, ?_, ?_, ?_⟩
  · simpa [Machine.isFree] using untaken
  · simpa [Machine.isFree, ← Option.isNone_iff_eq_none] using taken
  · simp [applied, refused, kept]

end Inventory

/-- Loading an inventory succeeds exactly when no tenant holds one of its machines. It then puts
the inventory over the store. Otherwise it puts over the store what the inventory lists before the
first machine that a tenant holds, without any health. A lease is found under every spelling of
its address, and the inventory loaded once more at any time ends alike and leaves the store as it
is, apart from markers and times. -/
theorem load_overrides (s : Store) (clock : String → UInt64) (i : Inventory) :
    ((s.load clock i).1 = none ↔ ∀ m ∈ i.machines, m.allocation = none) ∧
    ((s.load clock i).1 = none → s.Overridden clock i (s.load clock i).2) ∧
    (∀ failure, (s.load clock i).1 = some failure →
      ∃ front m behind, i.machines = front ++ m :: behind ∧
        (∀ m' ∈ front, m'.allocation = none) ∧ m.allocation ≠ none ∧
        failure = ⟨m.id, .invalid m.id "a machine cannot be created when it is allocated"⟩ ∧
        s.Overridden clock { i with machines := front, liveliness := .empty } (s.load clock i).2) ∧
    (∀ t a, Spells a t.toList → (ofText? t).bind (s.load clock i).2.lease? =
      (lastWith Lease.address a i.leases).or ((ofText? t).bind s.lease?)) ∧
    ∀ later, ((s.load clock i).2.load later i).1 = (s.load clock i).1 ∧
      ((s.load clock i).2.load later i).2.unstamped = (s.load clock i).2.unstamped := by
  have ending : ∀ (s : Store) clock, (s.load clock i).1 = i.refused?.map (·.refusal) := fun s clock => by
    rw [s.load_eq]
  have overridden := s.overridden_load clock i
  refine ⟨?complete, ?whole, ?part, ?spelling, ?again⟩
  case complete => rw [ending, Option.map_eq_none_iff, Inventory.refused?_eq_none_iff]
  case whole =>
    intro done
    rw [ending, Option.map_eq_none_iff] at done
    rwa [Inventory.applied_of_free done] at overridden
  case part =>
    intro failure failed
    rw [ending, Option.map_eq_some_iff] at failed
    obtain ⟨m, refused, rfl⟩ := failed
    obtain ⟨front, behind, listed, free, held, applied⟩ := Inventory.applied_of_refused refused
    rw [applied] at overridden
    exact ⟨front, m, behind, listed, free, held, rfl, overridden⟩
  case spelling =>
    intro t a spelled
    rw [ofText?_eq_some_iff.mpr spelled]
    exact overridden.lease? a
  case again =>
    intro later
    exact ⟨by rw [ending, ending], overridden.unstamped_eq (Store.overridden_load _ later i)⟩

/-- Of two records with one key the later one stays, a marker counts both, and what follows a
tenant's machine is left out. -/
theorem load_stops_at_held_machine :
    let free : Machine :=
      ⟨"m1", "", "fra", "s1", "rack-1", ⟨.available, ""⟩, true, false, none, [], 40⟩
    let binding : Allocation := ⟨"web", "", "p1", .machine, [], [], 0⟩
    let lease : Lease := ⟨.v6 ⟨[0x2001, 0xdb8, 0, 0, 0, 0, 0, 1], rfl⟩, "", "p1", "net"⟩
    let i : Inventory :=
      { networks := []
        leases := [lease, { lease with project := "p2" }]
        machines := [free, { free with rack := "rack-2" },
          { free with id := "m2", allocation := some binding }, { free with id := "m3" }]
        liveliness := .ofList [("m1", .alive)] }
    let s := Store.empty.putMachine { free with changed := 1 }
    let after := (s.load (fun _ => 9) i).2
    (s.load (fun _ => 9) i).1 ≠ none ∧
    after.machine? "m1" = some { free with rack := "rack-2", changed := 3 } ∧
    after.machine? "m3" = none ∧ after.heartbeat? "m1" = none ∧
    (ofText? "2001:0DB8::0001").bind after.lease? = some { lease with project := "p2" } ∧
    (after.load (fun _ => 10) i).2.unstamped = after.unstamped := by
  intro free binding lease i s after
  obtain ⟨complete, -, -, spelling, again⟩ := load_overrides s (fun _ => 9) i
  have spelled : Spells lease.address "2001:0DB8::0001".toList :=
    ofText?_eq_some_iff.mp (by decide)
  refine ⟨?held, by decide, by decide, by decide, ?found, (again _).2⟩
  case held =>
    intro done
    have := complete.mp done { free with id := "m2", allocation := some binding } (by decide)
    cases this
  case found =>
    rw [spelling _ _ spelled]
    decide

end MachinePool
