import MachinePool.Proofs.Allocation.Uninterrupted
import MachinePool.Proofs.Planning.Consistency

/-!
When an allocation succeeds, and which machine it makes of which.

A request has one target partition, that of the machine it names or the one it
names itself (`IsTarget`). It may get the machine it names if nobody holds or
claimed it, or any candidate of the partition and its size (`MayGet`), and among
the candidates those that keep the project spread (`PlacedFor`).

* `allocation_outcome`: an allocation succeeds exactly when the request is valid,
  can be planned for its target partition and may get some machine; and the
  machine it answers is one of those, with its record changed in a fixed way.
-/

namespace MachinePool

variable {s : Store} {r : Request} {partition : String} {m : Machine}
variable {words : Placement.RandomWords} {plan : Plan}

/-! ### What a request may get -/

/-- The partition a request is for is that of the machine it names, or the one it names itself. -/
def Store.IsTarget (s : Store) (r : Request) (partition : String) : Prop :=
  match r.namedMachine with
  | some id => ∃ m, s.machine? id = some m ∧ m.partition = partition
  | none => r.partition = some partition

/-- A request may get the machine it names if nobody has it, and otherwise every candidate. -/
def Store.MayGet (s : Store) (r : Request) (partition : String) (m : Machine) : Prop :=
  match r.namedMachine with
  | some id => s.machine? id = some m ∧ m.allocation = none ∧ m.preallocated = false
  | none => ∃ size, r.size = some size ∧ s.IsCandidate partition size m

/-- The machine is the one a request names, or a candidate that keeps the project spread. -/
def Store.PlacedFor (s : Store) (r : Request) (partition : String) (m : Machine) : Prop :=
  match r.namedMachine with
  | some id => m.id = id
  | none => ∃ size, r.size = some size ∧
      m ∈ Placement.spread (s.available partition size)
        (s.search (Query.projectMachines r.project partition)) r.tags

/-! ### Valid requests -/

/-- A valid request names a machine, or both a partition and a size, and not by empty texts. -/
theorem named_of_validate (valid : r.validate = .ok ()) (unnamed : r.namedMachine = none) :
    ∃ partition size, r.partition = some partition ∧ r.size = some size ∧
      partition ≠ "" ∧ size ≠ "" := by
  obtain ⟨-, -, hasSize, hasPartition, -⟩ := Request.validate_eq_ok_iff.mp valid
  rw [unnamed, Option.isSome_none, Bool.false_or] at hasSize hasPartition
  obtain ⟨partition, named⟩ := Option.isSome_iff_exists.mp hasPartition
  obtain ⟨size, sized⟩ := Option.isSome_iff_exists.mp hasSize
  obtain ⟨isPartition, partitionGiven⟩ := givenText_eq_some_iff.mp named
  obtain ⟨isSize, sizeGiven⟩ := givenText_eq_some_iff.mp sized
  exact ⟨partition, size, isPartition, isSize, partitionGiven, sizeGiven⟩

/-- The partition that is looked up for a valid request is its target. -/
theorem targetPartition_eq_ok_iff (valid : r.validate = .ok ()) :
    s.targetPartition r = .ok partition ↔ s.IsTarget r partition := by
  unfold Store.targetPartition Store.IsTarget
  cases named : r.namedMachine with
  | some id => cases found : s.machine? id <;> simp [found]
  | none =>
      obtain ⟨_, _, isPartition, -⟩ := named_of_validate valid named
      simp [isPartition]

/-- A request is prepared exactly when it is valid and can be planned for its target. -/
theorem prepare_eq_ok_iff :
    s.prepare r = .ok (partition, plan) ↔
      r.validate = .ok () ∧ s.IsTarget r partition ∧
        s.plan r partition s.superNetworks = .ok plan := by
  simp only [Store.prepare, bind_eq_ok_iff, pure, Except.pure, Except.ok.injEq, Prod.mk.injEq]
  constructor
  · rintro ⟨_, valid, _, target, _, planned, rfl, rfl⟩
    exact ⟨valid, (targetPartition_eq_ok_iff valid).mp target, planned⟩
  · rintro ⟨valid, target, planned⟩
    exact ⟨(), valid, partition, (targetPartition_eq_ok_iff valid).mpr target, plan, planned, rfl,
      rfl⟩

/-! ### The chosen machine -/

/-- Some machine is chosen exactly when the request may get one. -/
theorem exists_chooseFor_iff (reached : s.Reachable) (valid : r.validate = .ok ()) :
    (∃ m, s.chooseFor r partition words = .ok m) ↔ ∃ m, s.MayGet r partition m := by
  unfold Store.chooseFor Store.MayGet
  cases named : r.namedMachine with
  | some id =>
      simp only [Store.readUnclaimed_eq_ok_iff, Machine.isFree, Option.isNone_iff_eq_none]
  | none =>
      obtain ⟨_, size, -, isSize, -⟩ := named_of_validate valid named
      have selects : (∃ m words', s.select r.project partition size r.tags words =
          .ok (m, words')) ↔ ∃ m, s.IsCandidate partition size m :=
        Store.exists_select_iff reached
      simp only [isSize, Option.getD_some, map_eq_ok_iff, Option.some.injEq]
      constructor
      · rintro ⟨_, ⟨m, words'⟩, selected, rfl⟩
        obtain ⟨m, candidate⟩ := selects.mp ⟨m, words', selected⟩
        exact ⟨m, size, rfl, candidate⟩
      · rintro ⟨m, _, rfl, candidate⟩
        obtain ⟨m, words', selected⟩ := selects.mpr ⟨m, candidate⟩
        exact ⟨m, (m, words'), selected, rfl⟩

/-- The chosen machine is one the request may get, and it is placed as the request wants. -/
theorem mayGet_of_chooseFor (reached : s.Reachable) (valid : r.validate = .ok ())
    (chosen : s.chooseFor r partition words = .ok m) :
    s.MayGet r partition m ∧ s.PlacedFor r partition m := by
  unfold Store.chooseFor at chosen
  unfold Store.MayGet Store.PlacedFor
  cases named : r.namedMachine with
  | some id =>
      rw [named] at chosen
      obtain ⟨found, free, unclaimed⟩ := Store.readUnclaimed_eq_ok_iff.mp chosen
      exact ⟨⟨found, Option.isNone_iff_eq_none.mp free, unclaimed⟩, reached.id_eq found⟩
  | none =>
      obtain ⟨_, size, -, isSize, -⟩ := named_of_validate valid named
      rw [named, isSize] at chosen
      obtain ⟨⟨_, words'⟩, selected, rfl⟩ := map_eq_ok_iff.mp chosen
      exact ⟨⟨size, isSize, Store.isCandidate_of_select reached selected⟩,
        ⟨size, isSize, Store.mem_spread_of_select selected⟩⟩

/-! ### Tags -/

/-- Merging appends the tags that are not there yet, each once. -/
theorem mergeTags_eq (tags more : List String) :
    Store.mergeTags tags more = tags ++ (more.filter (· ∉ tags)).eraseDups := by
  induction more generalizing tags with
  | nil => simp [Store.mergeTags]
  | cons tag more ih =>
      change Store.mergeTags (if tag ∈ tags then tags else tags ++ [tag]) more = _
      rw [ih]
      by_cases known : tag ∈ tags
      · simp [known]
      · have others : more.filter (· ∉ tags ++ [tag]) =
            (more.filter (· ∉ tags)).filter fun other => !other == tag := by
          rw [List.filter_filter]
          refine List.filter_congr fun other _ => ?_
          by_cases same : other = tag <;> simp [same]
        rw [if_neg known, others, List.filter_cons_of_pos (by simpa using known),
          List.eraseDups_cons]
        simp

/-! ### Attachments -/

/-- A machine that gets a plan is attached to the planned networks in the order of their ids, with
the addresses that are bound to each. -/
theorem attachments_eq (typed : plan.Typed s r) :
    plan.attachments = plan.entries.map fun e =>
      { network := e.1, addresses := e.2.leases.map (·.address), autoAcquire := e.2.auto,
        type := e.2.type } := by
  rw [Plan.attachments, Table.values, List.map_map]
  apply List.map_congr_left
  rintro ⟨id, p⟩ planned
  -- A network is recorded by its own id, which is the one it is planned under.
  have named : p.network.id = id := (typed.stored id p ((Table.mem_entries_iff plan).mp planned)).2
  simp [PlannedNetwork.attachment, named]

/-! ### Allocating -/

/-- A successful allocation leaves the bound record behind and touches nothing else. -/
theorem allocate_store (reached : s.Reachable) {now : UInt64} {bound : Machine}
    (allocated : s.boundFor now r words = .ok bound) :
    (s.allocate now r words).2 = s.putMachine bound := by
  rw [Store.allocate_eq reached, allocated]

/-- Two writes raise a marker by two if it is not about to go around. -/
theorem toNat_add_two {marker : UInt64} (few : marker.toNat < 2 ^ 64 - 2) :
    (marker + 2).toNat = marker.toNat + 2 := by
  rw [UInt64.toNat_add]
  exact Nat.mod_eq_of_lt (by simp; omega)

/-- An allocation succeeds exactly when the request is valid, can be planned for its target
partition and may get some machine. The machine it answers is one the request may get and is placed
as the request wants; its record differs from the one before in the marks of a bound machine, in
the allocation, which lists every planned network with the addresses bound to it, and in the tags of
the request, and is all that is written. -/
theorem allocation_outcome {s : Store} (reached : s.Reachable) (now : UInt64) (r : Request)
    (words : Placement.RandomWords) :
    ((∃ bound, (s.allocate now r words).1 = .ok bound) ↔
      r.validate = .ok () ∧ ∃ partition, s.IsTarget r partition ∧
        (∃ plan, s.plan r partition s.superNetworks = .ok plan) ∧
        ∃ m, s.MayGet r partition m) ∧
    ∀ bound, (s.allocate now r words).1 = .ok bound →
      ∃ partition plan m, s.IsTarget r partition ∧
        s.plan r partition s.superNetworks = .ok plan ∧
        s.MayGet r partition m ∧ s.PlacedFor r partition m ∧ s.machine? m.id = some m ∧
        bound = { m with
          preallocated := true
          waiting := false
          changed := m.changed + 2
          allocation := some
            { name := r.name, creator := r.creator, project := r.project, role := r.role,
              sshKeys := r.sshKeys, createdAt := now
              attachments := plan.entries.map fun e =>
                { network := e.1, addresses := e.2.leases.map (·.address),
                  autoAcquire := e.2.auto, type := e.2.type } }
          tags := m.tags ++ (r.tags.filter (· ∉ m.tags)).eraseDups } ∧
        (m.changed.toNat < 2 ^ 64 - 2 → bound.changed.toNat = m.changed.toNat + 2) ∧
        (s.allocate now r words).2 = s.putMachine bound := by
  constructor
  · simp only [Store.allocate_eq_ok_iff reached, Store.boundFor_eq_ok_iff, prepare_eq_ok_iff]
    constructor
    · rintro ⟨_, partition, plan, m, ⟨valid, target, planned⟩, chosen, -⟩
      have some : ∃ m, s.MayGet r partition m :=
        (exists_chooseFor_iff reached valid).mp ⟨m, chosen⟩
      exact ⟨valid, partition, target, ⟨plan, planned⟩, some⟩
    · rintro ⟨valid, partition, target, ⟨plan, planned⟩, some⟩
      obtain ⟨m, chosen⟩ := (exists_chooseFor_iff reached valid).mpr some
      exact ⟨_, partition, plan, m, ⟨valid, target, planned⟩, chosen, rfl⟩
  · intro bound allocated
    rw [Store.allocate_eq_ok_iff reached] at allocated
    have left := allocate_store reached allocated
    obtain ⟨partition, plan, m, prepared, chosen, rfl⟩ := Store.boundFor_eq_ok_iff.mp allocated
    obtain ⟨valid, target, planned⟩ := prepare_eq_ok_iff.mp prepared
    obtain ⟨mayGet, placed⟩ := mayGet_of_chooseFor reached valid chosen
    have stored := (Store.stored_of_chooseFor reached chosen).1
    refine ⟨partition, plan, m, target, planned, mayGet, placed, stored, ?_, toNat_add_two, left⟩
    rw [← mergeTags_eq, ← attachments_eq (reached.typed_plan planned)]
    rfl

/-- In the small pool the smallest request gets the machine that waits, written twice and attached
to its network, on which an address is to be acquired. -/
theorem small_pool_meets_smallest_request :
    let s := (history Operation.smallPool).store
    let stored := { Machine.idle "m" with changed := 1 }
    s.Reachable ∧ s.MayGet .smallest "p" stored ∧
    ∃ bound, (s.allocate 0 .smallest ⟨[], 0⟩).1 = .ok bound ∧ bound.changed.toNat = 3 ∧
      bound.allocation.map (·.attachments) = some [⟨"net", [], true, .privatePrimaryUnshared⟩] ∧
      (s.allocate 0 .smallest ⟨[], 0⟩).2 = s.putMachine bound := by
  intro s stored
  have reached : s.Reachable := Store.reachable_history _
  obtain ⟨succeeds, outcome⟩ := allocation_outcome reached 0 .smallest ⟨[], 0⟩
  have isStored : s.machine? "m" = some stored := by decide
  have alive : s.heartbeat? "m" = some ⟨"m", .alive, 0⟩ := by decide
  have mayGet : s.MayGet .smallest "p" stored :=
    ⟨"s", rfl, isStored, rfl, rfl, rfl, rfl, rfl, rfl, _, alive, rfl⟩
  have planned : s.plan .smallest "p" s.superNetworks = .ok (Table.empty.insert "net"
      ⟨⟨"net", "", some "x", some "p", [], .tenant "super" false⟩, .privatePrimaryUnshared, [],
        true⟩) := by
    decide
  obtain ⟨bound, allocated⟩ := succeeds.mpr ⟨by decide, "p", rfl, ⟨_, planned⟩, stored, mayGet⟩
  obtain ⟨partition, plan, m, target, planned', -, -, found, record, marker, left⟩ :=
    outcome bound allocated
  obtain rfl : "p" = partition := Option.some.inj target
  cases planned.symm.trans planned'
  have only : m = stored := by
    have listed : m ∈ s.listMachines := Store.mem_listMachines.mpr ⟨_, found⟩
    have single : s.listMachines = [stored] := by decide
    rw [single] at listed
    exact List.mem_singleton.mp listed
  subst only
  have attached : bound.allocation.map (·.attachments) =
      some [⟨"net", [], true, .privatePrimaryUnshared⟩] := by
    rw [record]
    rfl
  exact ⟨reached, mayGet, bound, allocated, marker (by decide), attached, left⟩

end MachinePool
