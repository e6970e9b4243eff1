import MachinePool.Proofs.Allocation.Outcome

/-!
Where the administrative state of a machine counts.

An operator reserves or locks machines that are not to be handed out. A search
passes them by, so whatever is placed was available. A machine that is asked for
by its id is looked at for two things only, whether somebody holds it and whether
somebody has claimed it, and then it is handed out in any state.

* `handed_out_available_iff`: what a call hands out was available exactly when
  the call names no machine or names an available one, and to be handed out by
  its id a machine need not be available.
* `locked_machine_handed_out`: so locked machines are handed out.
-/

namespace MachinePool

variable {s : Store} {op : Operation} {named : Option String} {m copy : Machine} {id : String}

/-! ### Handing out -/

/-- The calls that hand a machine out, each with the id under which it asks for one if it does. -/
inductive Operation.HandsOut : Operation → Option String → Prop where
  | selectAndClaim (project partition size : String) (tags : List String)
      (words : Placement.RandomWords) :
      HandsOut (.selectAndClaim project partition size tags words) none
  | claimMachine (id : String) : HandsOut (.claimMachine id) (some id)
  | allocate (now : UInt64) (r : Request) (words : Placement.RandomWords) :
      HandsOut (.allocate now r words) r.namedMachine

/-- The stored machine a call may hand out: the one it names in whatever state, or an available
one. -/
structure Store.Choice (s : Store) (named : Option String) (copy : Machine) : Prop where
  stored : s.machine? copy.id = some copy
  asked : ∀ id, named = some id → copy.id = id
  available : named = none → copy.state.value = .available

/-- A machine that is read by its id is handed out in whatever state it is. -/
theorem choice_of_readUnclaimed (reached : s.Reachable) (read : s.readUnclaimed id = .ok copy) :
    s.Choice (some id) copy := by
  obtain ⟨found, -, -⟩ := Store.readUnclaimed_eq_ok_iff.mp read
  have same : copy.id = id := reached.id_eq found
  constructor
  case stored => rw [same, found]
  case asked =>
    rintro _ ⟨⟩
    exact same
  case available =>
    intro none
    cases none

/-- A selected machine is an available one. -/
theorem choice_of_select (reached : s.Reachable) {project partition size : String}
    {tags : List String} {words words' : Placement.RandomWords}
    (selected : s.select project partition size tags words = .ok (copy, words')) :
    s.Choice none copy := by
  have candidate := Store.isCandidate_of_select reached selected
  constructor
  case stored => exact candidate.stored
  case asked =>
    intro id some
    cases some
  case available =>
    intro _
    exact candidate.available

/-- An allocation chooses the machine the request names, in whatever state, or an available one. -/
theorem choice_of_chooseFor (reached : s.Reachable) {r : Request} {partition : String}
    {words : Placement.RandomWords} (chosen : s.chooseFor r partition words = .ok copy) :
    s.Choice r.namedMachine copy := by
  unfold Store.chooseFor at chosen
  cases naming : r.namedMachine with
  | some id =>
      rw [naming] at chosen
      exact choice_of_readUnclaimed reached chosen
  | none =>
      rw [naming] at chosen
      obtain ⟨⟨_, words'⟩, selected, rfl⟩ := map_eq_ok_iff.mp chosen
      exact choice_of_select reached selected

/-- What a call hands out is the machine of a choice. -/
theorem exists_choice_of_answer (reached : s.Reachable) (handsOut : op.HandsOut named)
    (answered : op.answer s = some (.ok m)) : ∃ copy, s.Choice named copy ∧ copy.id = m.id := by
  cases handsOut with
  | selectAndClaim =>
      obtain ⟨after, claimed⟩ := answerOf_eq_ok_iff.mp (Option.some.inj answered)
      obtain ⟨copy, _, selected, claimed⟩ := Store.exists_claim_of_selectAndClaim claimed
      obtain ⟨-, rfl, -⟩ := Store.claim_eq_ok_iff.mp claimed
      exact ⟨copy, choice_of_select reached selected, rfl⟩
  | claimMachine =>
      obtain ⟨after, claimed⟩ := answerOf_eq_ok_iff.mp (Option.some.inj answered)
      obtain ⟨copy, read, claimed⟩ := Store.claimMachine_eq_ok_iff.mp claimed
      obtain ⟨-, rfl, -⟩ := Store.claim_eq_ok_iff.mp claimed
      exact ⟨copy, choice_of_readUnclaimed reached read, rfl⟩
  | allocate now r words =>
      have allocated : (s.allocate now r words).1 = .ok m :=
        mapError_eq_ok_iff.mp (Option.some.inj answered)
      rw [Store.allocate_eq_ok_iff reached] at allocated
      obtain ⟨_, _, copy, -, chosen, rfl⟩ := Store.boundFor_eq_ok_iff.mp allocated
      exact ⟨copy, choice_of_chooseFor reached chosen, rfl⟩

/-! ### Machines that are asked for by their ids -/

/-- To be claimed by its id a machine must be stored, free and unclaimed, and nothing else. -/
theorem exists_claimMachine_iff (reached : s.Reachable) :
    (∃ written, s.claimMachine id = .ok written) ↔
      ∃ n, s.machine? id = some n ∧ n.isFree = true ∧ n.preallocated = false := by
  constructor
  · rintro ⟨⟨m, after⟩, claimed⟩
    obtain ⟨n, read, -⟩ := Store.claimMachine_eq_ok_iff.mp claimed
    exact ⟨n, Store.readUnclaimed_eq_ok_iff.mp read⟩
  · rintro ⟨n, fit⟩
    have read := Store.readUnclaimed_eq_ok_iff.mpr fit
    have stored := (choice_of_readUnclaimed reached read).stored
    exact ⟨_, Store.claimMachine_eq_ok_iff.mpr ⟨n, read, Store.claim_of_stored stored⟩⟩

/-- A valid request that names a machine is met when it can be planned for the partition of this
machine and the machine is stored, free and unclaimed. -/
theorem exists_allocate_named_iff (reached : s.Reachable) {now : UInt64} {r : Request}
    {words : Placement.RandomWords} (naming : r.namedMachine = some id) :
    (∃ bound, (s.allocate now r words).1 = .ok bound) ↔
      r.validate = .ok () ∧ ∃ n, s.machine? id = some n ∧ n.isFree = true ∧
        n.preallocated = false ∧ ∃ plan, s.plan r n.partition s.superNetworks = .ok plan := by
  simp only [Store.allocate_eq_ok_iff reached, Store.boundFor_eq_ok_iff, prepare_eq_ok_iff,
    Store.IsTarget, Store.chooseFor, naming, Store.readUnclaimed_eq_ok_iff]
  constructor
  · rintro ⟨_, _, plan, n, ⟨valid, ⟨target, found, rfl⟩, planned⟩, ⟨again, free, unclaimed⟩, -⟩
    cases found.symm.trans again
    exact ⟨valid, n, found, free, unclaimed, plan, planned⟩
  · rintro ⟨valid, n, found, free, unclaimed, plan, planned⟩
    exact ⟨_, n.partition, plan, n, ⟨valid, ⟨n, found, rfl⟩, planned⟩, ⟨found, free, unclaimed⟩,
      rfl⟩

/-! ### Availability -/

/-- What a call hands out was available exactly when the call names no machine or names an available
one. For a machine to be claimed or allocated by its id it is enough that it is stored, free and
unclaimed and that the request can be planned; its administrative state plays no part. -/
theorem handed_out_available_iff {s : Store} (reached : s.Reachable) :
    (∀ op named m, Operation.HandsOut op named → op.answer s = some (.ok m) →
      ∃ before, s.machine? m.id = some before ∧
        (before.state.value = .available ↔ ∀ id, named = some id →
          ∃ n, s.machine? id = some n ∧ n.state.value = .available)) ∧
    (∀ id, (∃ written, s.claimMachine id = .ok written) ↔
      ∃ n, s.machine? id = some n ∧ n.isFree = true ∧ n.preallocated = false) ∧
    ∀ now r words id, r.namedMachine = some id →
      ((∃ bound, (s.allocate now r words).1 = .ok bound) ↔
        r.validate = .ok () ∧ ∃ n, s.machine? id = some n ∧ n.isFree = true ∧
          n.preallocated = false ∧ ∃ plan, s.plan r n.partition s.superNetworks = .ok plan) := by
  refine ⟨?available, ?claimed, ?allocated⟩
  case available =>
    intro op named m handsOut answered
    obtain ⟨before, choice, same⟩ := exists_choice_of_answer reached handsOut answered
    refine ⟨before, by rw [← same, choice.stored], ?_, ?_⟩
    · intro available id naming
      rw [← choice.asked id naming]
      exact ⟨before, choice.stored, available⟩
    · intro namedAvailable
      cases named with
      | none => exact choice.available rfl
      | some id =>
          obtain ⟨n, found, available⟩ := namedAvailable id rfl
          rw [← choice.asked id rfl, choice.stored] at found
          cases found
          exact available
  case claimed =>
    intro id
    exact exists_claimMachine_iff reached
  case allocated =>
    intro now r words id naming
    exact exists_allocate_named_iff reached naming

/-- Calls that set up a partition with one live machine that is locked and one private network. -/
def Operation.lockedPool : List Operation :=
  [.register { Machine.idle "m" with state := ⟨.locked, "in repair"⟩ },
    .putHeartbeat ⟨"m", .alive, 0⟩,
    .putNetwork ⟨"super", "", none, some "p", [], .privateSuper⟩,
    .putNetwork ⟨"net", "", some "x", some "p", [], .tenant "super" false⟩]

/-- What is placed in the small pool was available, and the locked machine of the other pool can be
claimed all the same. -/
theorem small_pool_hands_out_available :
    let s := (history Operation.smallPool).store
    let bound := { Machine.idle "m" with
      waiting := false, preallocated := true, changed := 3,
      allocation := some ⟨"", "c", "x", .machine, [],
        [⟨"net", [], true, .privatePrimaryUnshared⟩], 0⟩ }
    s.Reachable ∧ (Operation.allocate 0 .smallest ⟨[], 0⟩).answer s = some (.ok bound) ∧
    (∃ before, s.machine? "m" = some before ∧ before.state.value = .available) ∧
    ∃ written, (history Operation.lockedPool).store.claimMachine "m" = .ok written := by
  intro s bound
  have reached : s.Reachable := Store.reachable_history _
  have allocated : (Operation.allocate 0 .smallest ⟨[], 0⟩).answer s = some (.ok bound) := by
    decide
  obtain ⟨available, -, -⟩ := handed_out_available_iff reached
  obtain ⟨before, stored, exactly⟩ :=
    available _ _ bound (Operation.HandsOut.allocate 0 .smallest ⟨[], 0⟩) allocated
  have unnamed : Request.smallest.namedMachine = none := rfl
  have wasAvailable : before.state.value = .available := by
    apply exactly.mpr
    intro id naming
    rw [unnamed] at naming
    cases naming
  obtain ⟨-, claimed, -⟩ :=
    handed_out_available_iff (Store.reachable_history Operation.lockedPool)
  have free : ∃ n, (history Operation.lockedPool).store.machine? "m" = some n ∧
      n.isFree = true ∧ n.preallocated = false :=
    ⟨{ Machine.idle "m" with state := ⟨.locked, "in repair"⟩, changed := 1 }, by decide, rfl, rfl⟩
  exact ⟨reached, allocated, ⟨before, stored, wasAvailable⟩, (claimed "m").mpr free⟩

/-- A locked machine is handed out to whoever asks for it by its id, be it claimed or allocated. -/
theorem locked_machine_handed_out :
    let locked := { Machine.idle "m" with state := ⟨.locked, "in repair"⟩, changed := 1 }
    let s := (history Operation.lockedPool).store
    let r := { Request.smallest with machine := some "m" }
    s.machine? "m" = some locked ∧ locked.state.value ≠ .available ∧
    (s.claimMachine "m").toOption.map (·.1) =
      some { locked with preallocated := true, changed := 2 } ∧
    (s.allocate 0 r ⟨[], 0⟩).1.toOption.map (·.state.value) = some .locked := by
  decide

end MachinePool
