import MachinePool.Proofs.Allocation.OneWrite

/-!
The candidates of a partition and a size are handed out one by one.

A selection finds a candidate as long as there is one, its claim takes just this
machine out of the pool (`exists_selectAndClaim`), and where there is none it fails
(`selectAndClaim_of_exhausted`).

* `candidates_all_claimed`: as many selections as there are candidates claim all
  of them, whatever projects and tags they are for and whatever words are drawn,
  and none after that succeeds.
-/

namespace MachinePool

variable {s : Store} {m : Machine} {partition size : String} {machines : List Machine}

/-- What a selection is for besides the partition and the size, and the words it draws. -/
structure Selection where
  project : String
  tags : List String
  words : Placement.RandomWords

namespace Store

/-- Selects and claims a machine for each of some selections, in the store that the one before it
left. -/
def selectAndClaimAll (s : Store) (partition size : String) :
    List Selection → Except AllocationError (List Machine × Store)
  | [] => .ok ([], s)
  | call :: calls => do
    let (claimed, s) ← s.selectAndClaim call.project partition size call.tags call.words
    let (others, s) ← s.selectAndClaimAll partition size calls
    return (claimed :: others, s)

/-- Some machines are the candidates for a partition and a size, each listed once. -/
structure IsPool (s : Store) (partition size : String) (machines : List Machine) : Prop where
  distinct : machines.Nodup
  mem_iff : ∀ m, m ∈ machines ↔ s.IsCandidate partition size m

/-! ### One selection -/

/-- A selection claims one of the candidates, and the others are left. -/
theorem exists_selectAndClaim (reached : s.Reachable)
    (pool : s.IsPool partition size machines) (some : machines ≠ []) (call : Selection) :
    ∃ m ∈ machines, s.selectAndClaim call.project partition size call.tags call.words =
        .ok (m.claimed, s.putMachine m.claimed) ∧
      (s.putMachine m.claimed).IsPool partition size (machines.erase m) := by
  obtain ⟨first, mem⟩ := List.exists_mem_of_ne_nil _ some
  obtain ⟨m, words', selected⟩ :
      ∃ m words', s.select call.project partition size call.tags call.words = .ok (m, words') :=
    (exists_select_iff reached).mpr ⟨first, (pool.mem_iff first).mp mem⟩
  have candidate := isCandidate_of_select reached selected
  refine ⟨m, (pool.mem_iff m).mpr candidate, ?claims, pool.distinct.erase m, ?others⟩
  case claims =>
    rw [selectAndClaim_eq, selected]
    exact claim_of_stored candidate.stored
  case others =>
    intro other
    rw [pool.distinct.mem_erase_iff, pool.mem_iff, isCandidate_putMachine_iff rfl,
      and_comm]
    refine and_congr_right fun candidate' => not_congr ⟨fun same => same ▸ rfl, fun same => ?_⟩
    exact candidate'.eq_of_id_eq candidate same

/-- Where there is no candidate a selection fails. -/
theorem selectAndClaim_of_exhausted (reached : s.Reachable)
    (pool : s.IsPool partition size []) (call : Selection) :
    s.selectAndClaim call.project partition size call.tags call.words =
      .error (.noMachineAvailable partition size) := by
  have none : s.available partition size = [] := by
    refine List.eq_nil_iff_forall_not_mem.mpr fun m mem => ?_
    exact List.not_mem_nil ((pool.mem_iff m).mpr ((mem_available_iff reached).mp mem))
  rw [selectAndClaim_eq, select, candidates_eq, if_pos none]
  rfl

/-! ### As many selections as candidates -/

/-- As many selections as there are candidates claim them all and leave none. -/
theorem exists_selectAndClaimAll (reached : s.Reachable)
    (pool : s.IsPool partition size machines) {calls : List Selection}
    (enough : calls.length = machines.length) :
    ∃ claimed after, s.selectAndClaimAll partition size calls = .ok (claimed, after) ∧
      claimed.Perm (machines.map Machine.claimed) ∧ after.Reachable ∧
      after.IsPool partition size [] := by
  -- The pool shrinks with the calls: what one of them leaves is the pool of those that follow.
  induction calls generalizing s machines with
  | nil =>
      cases List.length_eq_zero_iff.mp enough.symm
      exact ⟨[], s, rfl, .nil, reached, pool⟩
  | cons call calls ih =>
      have some : machines ≠ [] := List.ne_nil_of_length_eq_add_one enough.symm
      obtain ⟨m, mem, claims, left⟩ := exists_selectAndClaim reached pool some call
      have fewer : calls.length = (machines.erase m).length := by
        rw [List.length_erase_of_mem mem, ← enough, List.length_cons, Nat.add_sub_cancel]
      obtain ⟨others, after, rest, all, nextReached, exhausted⟩ :=
        ih (reached.selectAndClaim claims) left fewer
      refine ⟨m.claimed :: others, after, ?_, ?_, nextReached, exhausted⟩
      · rw [selectAndClaimAll, claims]
        simp only [bind, Except.bind, rest, pure, Except.pure]
      · exact (all.cons m.claimed).trans ((List.perm_cons_erase mem).map Machine.claimed).symm

theorem IsPool.nodup_ids (pool : s.IsPool partition size machines) :
    (machines.map (·.id)).Nodup := by
  refine (List.nodup_map_iff_inj_on pool.distinct).mpr fun m mem other mem' same => ?_
  exact ((pool.mem_iff m).mp mem).eq_of_id_eq ((pool.mem_iff other).mp mem') same

end Store

/-- As many selections for a partition and a size as there are candidates all succeed, whatever
projects and tags they are for and whatever words are drawn. They claim the candidates, each one
once; and any further selection fails for want of a machine and writes nothing. -/
theorem candidates_all_claimed {s : Store} (reached : s.Reachable) {partition size : String}
    {machines : List Machine} (pool : s.IsPool partition size machines)
    {calls : List Selection} (enough : calls.length = machines.length) :
    ∃ claimed after, s.selectAndClaimAll partition size calls = .ok (claimed, after) ∧
      (claimed.map (·.id)).Nodup ∧ claimed.Perm (machines.map Machine.claimed) ∧
      ∀ project tags words,
        after.selectAndClaim project partition size tags words =
          .error (.noMachineAvailable partition size) ∧
        (Operation.selectAndClaim project partition size tags words).effect after = ([], after) := by
  obtain ⟨claimed, after, claims, all, nextReached, exhausted⟩ :=
    Store.exists_selectAndClaimAll reached pool enough
  have ids : (claimed.map (·.id)).Nodup := by
    rw [(all.map (·.id)).nodup_iff, List.map_map]
    exact pool.nodup_ids
  refine ⟨claimed, after, claims, ids, all, fun project tags words => ?_⟩
  have fails := Store.selectAndClaim_of_exhausted nextReached exhausted ⟨project, tags, words⟩
  exact ⟨fails, by rw [Operation.effect, fails]; rfl⟩

/-- Calls that register two live machines in two racks, and one that nothing is heard of. -/
def Operation.mixedPool : List Operation :=
  [.register (Machine.idle "a"), .putHeartbeat ⟨"a", .alive, 0⟩,
    .register { Machine.idle "b" with rack := "b" }, .putHeartbeat ⟨"b", .alive, 0⟩,
    .register (Machine.idle "c")]

/-- Two projects get the two live machines, and the third machine is not handed out. -/
theorem mixed_pool_used_up :
    let s := (history Operation.mixedPool).store
    let machines := [{ Machine.idle "a" with changed := 1 },
      { Machine.idle "b" with rack := "b", changed := 1 }]
    s.Reachable ∧ s.IsPool "p" "s" machines ∧
    ∃ claimed after,
      s.selectAndClaimAll "p" "s" [⟨"x", ["db"], ⟨[7], 0⟩⟩, ⟨"y", [], ⟨[], 0⟩⟩] =
        .ok (claimed, after) ∧
      (claimed.map (·.id)).Nodup ∧ claimed.Perm (machines.map Machine.claimed) ∧
      ∀ project tags words,
        after.selectAndClaim project "p" "s" tags words = .error (.noMachineAvailable "p" "s") ∧
        (Operation.selectAndClaim project "p" "s" tags words).effect after = ([], after) := by
  intro s machines
  have reached : s.Reachable := Store.reachable_history _
  have listed : s.available "p" "s" = machines := by decide +kernel
  have pool : s.IsPool "p" "s" machines :=
    ⟨by decide, fun m => by rw [← listed, Store.mem_available_iff reached]⟩
  exact ⟨reached, pool, candidates_all_claimed reached pool rfl⟩

end MachinePool
