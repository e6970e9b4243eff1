import MachinePool.Proofs.Journal.Marker

/-!
What an allocation takes back when its last step fails.

Between a claim and its finalization other callers may release, claim, finalize
and allocate, and machines may report that they wait. The failed allocation
then releases the machine it had claimed by its id, whoever holds it by now.

* `unwinding_spares_iff`: a machine that was written since the claim keeps its
  record exactly when its last write was a release or a report. Otherwise
  another caller holds it, and loses it.
-/

namespace MachinePool

/-! ### The last write of a machine -/

/-- What a machine was written for and what was written, if the entry is a write of it. -/
def Entry.write? (id : String) : Entry → Option (Cause × Machine)
  | wrote cause m => if m.id = id then some (cause, m) else none
  | deleted _ => none

def lastWrite? (id : String) (journal : List Entry) : Option (Cause × Machine) :=
  (journal.filterMap (Entry.write? id)).getLast?

theorem lastWrite?_cons (id : String) (e : Entry) (entries : List Entry) :
    lastWrite? id (e :: entries) = (lastWrite? id entries).or (e.write? id) := by
  unfold lastWrite?
  cases write : e.write? id with
  | none => simp [write]
  | some first =>
      cases later : (entries.filterMap (Entry.write? id)).getLast? <;>
        simp [write, List.getLast?_cons, later]

theorem wrote_mem_of_lastWrite? {id : String} {journal : List Entry} {cause : Cause} {m : Machine}
    (last : lastWrite? id journal = some (cause, m)) : .wrote cause m ∈ journal ∧ m.id = id := by
  obtain ⟨e, mem, write⟩ := List.mem_filterMap.mp (List.mem_of_getLast? last)
  cases e with
  | deleted gone => cases write
  | wrote cause' m' =>
      by_cases same : m'.id = id
      · simp only [Entry.write?, same, if_true, Option.some.injEq, Prod.mk.injEq] at write
        obtain ⟨rfl, rfl⟩ := write
        exact ⟨mem, same⟩
      · simp [Entry.write?, same] at write

/-- The stored record is the last write, or the record from before the first one. -/
theorem Recorded.machine?_eq {s after : Store} {entries : List Entry}
    (steps : Recorded s entries after) (kept : ∀ id, .deleted id ∉ entries) (id : String) :
    after.machine? id = ((lastWrite? id entries).map (·.2)).or (s.machine? id) := by
  induction steps with
  | nothing same => simp [Store.machine?, same, lastWrite?]
  | deleted _ _ => exact absurd List.mem_cons_self (kept _)
  | @wrote s next after cause m entries write _ ih =>
      have rest := ih fun id mem => kept id (List.mem_cons_of_mem _ mem)
      rw [rest, lastWrite?_cons, write.store, Store.machine?_putMachine]
      by_cases same : m.id = id
      · cases lastWrite? id entries <;> simp [Entry.write?, same]
      · simp [Entry.write?, same, Ne.symm same]

/-! ### Calls of the engine -/

/-- The calls by which callers of the engine and waiting machines write: claims, finalizations,
releases and whole allocations, and the report of a machine nobody has taken. -/
def Operation.IsEngineCall : Operation → Prop
  | claim _ | claimMachine _ | selectAndClaim .. | attach .. | release _ | allocate .. => True
  | replace old new => old.isTaken = false ∧ new = { old with waiting := true }
  | register _ | delete _ | putNetwork _ | putLease _ | putHeartbeat _ => False

/-- A write that leaves its machine idle exactly when it releases it or reports it waiting. -/
def Entry.LeavesIdleIfFreed : Entry → Prop
  | wrote cause m => m.isTaken = false ↔ cause = .release ∨ cause = .replacement
  | deleted _ => False

theorem leavesIdleIfFreed_settle {ε : Type} {s : Store} {cause : Cause}
    {result : Except ε (Machine × Store)}
    (write : ∀ m after, result = .ok (m, after) → (Entry.wrote cause m).LeavesIdleIfFreed) :
    ∀ e ∈ (settle cause s result).1, e.LeavesIdleIfFreed := by
  cases result with
  | error e => simp [settle]
  | ok written => simpa [settle] using write written.1 written.2 rfl

/-- A claimed machine is taken, whatever copy was claimed. -/
theorem leavesIdleIfFreed_claim {s after : Store} {copy m : Machine}
    (claimed : s.claim copy = .ok (m, after)) : (Entry.wrote .claim m).LeavesIdleIfFreed := by
  obtain ⟨-, rfl, -⟩ := Store.claim_eq_ok_iff.mp claimed
  simp [Entry.LeavesIdleIfFreed, Machine.isTaken]

/-- A finalization leaves its machine held. -/
theorem leavesIdleIfFreed_attach {s after : Store} {copy m : Machine} {a : Allocation}
    {tags : List String} (attached : s.attachAllocation copy a tags = .ok (m, after)) :
    (Entry.wrote .allocation m).LeavesIdleIfFreed := by
  obtain ⟨-, -, -, rfl, -⟩ := Store.attachAllocation_eq_ok_iff.mp attached
  simp [Entry.LeavesIdleIfFreed, Machine.isTaken, Machine.isFree, Store.allocated]

/-- A release leaves its machine idle. -/
theorem leavesIdleIfFreed_release {s after : Store} {id : String} {m : Machine}
    (freed : s.release id = .ok (m, after)) : (Entry.wrote .release m).LeavesIdleIfFreed := by
  obtain ⟨taken, -, -, replaced⟩ := Store.release_eq_ok_iff.mp freed
  obtain ⟨-, -, rfl, -⟩ := Store.replace_eq_ok_iff.mp replaced
  simp [Entry.LeavesIdleIfFreed, Machine.isTaken, Machine.isFree, Store.released]

/-- A report leaves its machine idle. -/
theorem leavesIdleIfFreed_report {s after : Store} {old new m : Machine}
    (idle : old.isTaken = false) (report : new = { old with waiting := true })
    (replaced : s.replace old new = .ok (m, after)) :
    (Entry.wrote .replacement m).LeavesIdleIfFreed := by
  obtain ⟨-, -, rfl, -⟩ := Store.replace_eq_ok_iff.mp replaced
  subst report
  simpa [Entry.LeavesIdleIfFreed, Machine.isTaken, Machine.isFree] using idle

theorem leavesIdleIfFreed_allocateEffect (s : Store) (now : UInt64) (r : Request)
    (words : Placement.RandomWords) :
    ∀ e ∈ (allocateEffect s now r words).1, e.LeavesIdleIfFreed := by
  unfold allocateEffect
  cases s.prepare r with
  | error e => simp
  | ok prepared =>
      obtain ⟨partition, plan⟩ := prepared
      cases claim : s.claimFor r partition words with
      | error e => simp [claim]
      | ok claimResult =>
          obtain ⟨claimed, claimedStore⟩ := claimResult
          obtain ⟨copy, fromCopy⟩ := Store.exists_claim_of_claimFor claim
          have first := leavesIdleIfFreed_claim fromCopy
          cases final : claimedStore.finalize now claimed r plan with
          | ok written =>
              have second := leavesIdleIfFreed_attach final
              simp only [claim, final]
              simpa using ⟨first, second⟩
          | error e =>
              have undone : ∀ e ∈ (settle .release claimedStore
                  (claimedStore.release claimed.id)).1, e.LeavesIdleIfFreed :=
                leavesIdleIfFreed_settle fun _ _ h => leavesIdleIfFreed_release h
              simp only [claim, final]
              simpa using ⟨first, undone⟩

/-- Among the calls of the engine only releases and reports leave a machine idle. -/
theorem leavesIdleIfFreed_effect {s : Store} {op : Operation} (call : op.IsEngineCall) :
    ∀ e ∈ (op.effect s).1, e.LeavesIdleIfFreed := by
  cases op with
  | claim copy => exact leavesIdleIfFreed_settle fun _ _ h => leavesIdleIfFreed_claim h
  | claimMachine id =>
      refine leavesIdleIfFreed_settle fun _ _ h => ?_
      obtain ⟨copy, -, claimed⟩ := Store.claimMachine_eq_ok_iff.mp h
      exact leavesIdleIfFreed_claim claimed
  | selectAndClaim =>
      refine leavesIdleIfFreed_settle fun _ _ h => ?_
      obtain ⟨copy, -, -, claimed⟩ := Store.exists_claim_of_selectAndClaim h
      exact leavesIdleIfFreed_claim claimed
  | attach => exact leavesIdleIfFreed_settle fun _ _ h => leavesIdleIfFreed_attach h
  | release => exact leavesIdleIfFreed_settle fun _ _ h => leavesIdleIfFreed_release h
  | allocate now r words => exact leavesIdleIfFreed_allocateEffect s now r words
  | replace old new =>
      obtain ⟨idle, report⟩ := call
      exact leavesIdleIfFreed_settle fun _ _ h => leavesIdleIfFreed_report idle report h
  | _ => exact call.elim

theorem Operation.IsEngineCall.isDelete_eq_false {op : Operation} (call : op.IsEngineCall) :
    op.isDelete = false := by
  cases op with
  | delete id => exact call.elim
  | _ => rfl

/-- A machine that calls of the engine wrote is idle exactly when their last write of it was a
release or a report. -/
theorem exists_lastWrite_of_moved {s : Store} {ops : List Operation}
    (calls : ∀ op ∈ ops, op.IsEngineCall) {c m : Machine} {id : String}
    (before : s.machine? id = some c)
    (after : (History.performAll ⟨[], s⟩ ops).store.machine? id = some m) (moved : m ≠ c) :
    ∃ cause, lastWrite? id (History.performAll ⟨[], s⟩ ops).journal = some (cause, m) ∧
      m.id = id ∧ (m.isTaken = false ↔ cause = .release ∨ cause = .replacement) := by
  have kept := deleted_notMem_performAll (s := s) fun op mem => (calls op mem).isDelete_eq_false
  have steps := (recorded_performAll s ops).machine?_eq kept id
  rw [after, before] at steps
  cases last : lastWrite? id (History.performAll ⟨[], s⟩ ops).journal with
  | none =>
      rw [last] at steps
      exact absurd (Option.some.inj steps) moved
  | some write =>
      obtain ⟨cause, m'⟩ := write
      rw [last] at steps
      obtain rfl : m = m' := Option.some.inj steps
      obtain ⟨written, same⟩ := wrote_mem_of_lastWrite? last
      obtain ⟨op, mem, _, effect⟩ := History.exists_effect_of_mem_journal written
      exact ⟨cause, rfl, same, leavesIdleIfFreed_effect (calls op mem) _ effect⟩

/-! ### The failed allocation -/

/-- A claim that is given up is released if its machine is taken, by whomever. -/
theorem unwind_of_stored {s : Store} {m : Machine} (found : s.machine? m.id = some m) :
    s.unwind m.id = if m.isTaken then
        s.putMachine { Store.released m with changed := m.changed + 1 }
      else s := by
  by_cases taken : m.isTaken = true
  · have replaced : s.replace m (Store.released m) =
        .ok ({ Store.released m with changed := m.changed + 1 },
          s.putMachine { Store.released m with changed := m.changed + 1 }) :=
      Store.replace_of_current rfl ⟨m, found, rfl⟩
    have released := Store.release_eq_ok_iff.mpr ⟨m, found, taken, replaced⟩
    simp only [Store.unwind, released, taken, if_true]
  · rw [if_neg taken, Store.unwind]
    cases released : s.release m.id with
    | error e => rfl
    | ok written =>
        obtain ⟨_, found', taken', -⟩ := Store.release_eq_ok_iff.mp released
        rw [found] at found'
        cases found'
        exact absurd taken' taken

/-- A claim that was written over cannot be finalized, and then it is given up. -/
theorem finalizeOrUnwind_of_outdated {s : Store} {c : Machine} (outdated : ¬ s.IsCurrent c)
    (now : UInt64) (r : Request) (plan : Plan) :
    ∃ e, s.finalizeOrUnwind now c r plan = (.error e, s.unwind c.id) := by
  cases final : s.finalize now c r plan with
  | error e => exact ⟨e, by simp only [Store.finalizeOrUnwind, final]⟩
  | ok written => exact absurd (Store.attachAllocation_eq_ok_iff.mp final).2.2.1 outdated

/-- When a claimed machine is written by other callers, its finalization fails, and what the failed
allocation takes back depends on the last write alone. A machine that was released or reported
waiting, the only replacement among these calls, keeps its record. A machine that was claimed or
finalized loses the other caller's claim or allocation. -/
theorem unwinding_spares_iff (s s₁ : Store) (copy c : Machine)
    (claimed : s.claim copy = .ok (c, s₁)) (ops : List Operation)
    (others : ∀ op ∈ ops, op.IsEngineCall) (m : Machine)
    (stored : (History.performAll ⟨[], s₁⟩ ops).store.machine? c.id = some m)
    (moved : m.changed ≠ c.changed) (now : UInt64) (r : Request) (plan : Plan) :
    let run := History.performAll ⟨[], s₁⟩ ops
    let unwound := (run.store.finalizeOrUnwind now c r plan).2
    (∃ e, (run.store.finalizeOrUnwind now c r plan).1 = .error e) ∧
    ∃ cause, lastWrite? c.id run.journal = some (cause, m) ∧
      (unwound.machine? c.id = some m ↔ cause = .release ∨ cause = .replacement) ∧
      unwound = if cause = .release ∨ cause = .replacement then run.store
        else run.store.putMachine { Store.released m with changed := m.changed + 1 } := by
  intro run unwound
  obtain ⟨-, -, rfl⟩ := Store.claim_eq_ok_iff.mp claimed
  obtain ⟨cause, last, same, idle⟩ := exists_lastWrite_of_moved others
    (Store.machine?_putMachine_self s c) stored fun unmoved => moved (congrArg _ unmoved)
  have outdated : ¬ run.store.IsCurrent c := by
    rintro ⟨m', found, current⟩
    rw [stored] at found
    cases found
    exact moved current
  obtain ⟨e, failed⟩ := finalizeOrUnwind_of_outdated outdated now r plan
  have found : run.store.machine? m.id = some m := by rw [same, stored]
  have unwinding : unwound = if m.isTaken then
        run.store.putMachine { Store.released m with changed := m.changed + 1 }
      else run.store := by
    rw [← unwind_of_stored found, same]
    exact congrArg Prod.snd failed
  refine ⟨⟨e, congrArg Prod.fst failed⟩, cause, last, ?_⟩
  by_cases freed : cause = .release ∨ cause = .replacement
  · rw [idle.mpr freed, if_neg Bool.false_ne_true] at unwinding
    rw [unwinding, if_pos freed]
    exact ⟨⟨fun _ => freed, fun _ => stored⟩, rfl⟩
  · have taken : m.isTaken = true := by simpa using mt idle.mp freed
    rw [taken, if_pos rfl] at unwinding
    rw [unwinding, if_neg freed]
    refine ⟨⟨fun kept => ?_, fun freed' => absurd freed' freed⟩, rfl⟩
    have stored' := Store.machine?_putMachine_self run.store
      { Store.released m with changed := m.changed + 1 }
    rw [show (Store.released m).id = c.id from same, kept] at stored'
    have bumped : m.changed = m.changed + 1 := congrArg Machine.changed (Option.some.inj stored')
    simp at bumped

/-- After its claim was released, a machine keeps its record; once another tenant got it besides,
it does not. -/
theorem unwinding_spares_released :
    let idle := Machine.idle "m"
    let s := (history [.register idle]).store
    let copy := { idle with changed := 1 }
    let c := { idle with preallocated := true, changed := 2 }
    let d := { idle with waiting := false, preallocated := true, changed := 4 }
    let released := History.performAll ⟨[], s.putMachine c⟩ [.release "m"]
    let rebound := History.performAll ⟨[], s.putMachine c⟩
      [.release "m", .claimMachine "m", .attach d ⟨"b", "c", "y", .machine, [], [], 0⟩ []]
    s.claim copy = .ok (c, s.putMachine c) ∧
    (released.store.finalizeOrUnwind 0 c {} .empty).2 = released.store ∧
    (rebound.store.finalizeOrUnwind 0 c {} .empty).2 ≠ rebound.store := by
  intro idle s copy c d released rebound
  have claimed : s.claim copy = .ok (c, s.putMachine c) := by decide
  obtain ⟨-, first, firstLast, -, spared⟩ := unwinding_spares_iff s _ copy c claimed
    [.release "m"] (by simp [Operation.IsEngineCall])
    { idle with waiting := false, changed := 3 } (by decide) (by decide) 0 {} .empty
  obtain ⟨-, second, secondLast, cleared, -⟩ := unwinding_spares_iff s _ copy c claimed
    [.release "m", .claimMachine "m", .attach d ⟨"b", "c", "y", .machine, [], [], 0⟩ []]
    (by simp [Operation.IsEngineCall])
    { d with allocation := some ⟨"b", "c", "y", .machine, [], [], 0⟩, changed := 5 }
    (by decide) (by decide) 0 {} .empty
  have byRelease : first = .release := by
    have : lastWrite? "m" released.journal =
        some (.release, { idle with waiting := false, changed := 3 }) := by
      decide
    exact congrArg Prod.fst (Option.some.inj (firstLast.symm.trans this))
  have byAllocation : second = .allocation := by
    have : lastWrite? "m" rebound.journal = some (.allocation,
        { d with allocation := some ⟨"b", "c", "y", .machine, [], [], 0⟩, changed := 5 }) := by
      decide
    exact congrArg Prod.fst (Option.some.inj (secondLast.symm.trans this))
  refine ⟨claimed, by simpa [byRelease] using spared, fun same => ?_⟩
  have lost := mt cleared.mp (by simp [byAllocation])
  rw [same] at lost
  exact lost (by decide)

/-- The allocation of the tenant who got the machine in between is cleared, though it was written
after the claim that is given up. -/
theorem unwinding_clears_foreign_allocation :
    let idle := Machine.idle "m"
    let c := { idle with preallocated := true, changed := 2 }
    let d := { idle with waiting := false, preallocated := true, changed := 4 }
    let bound := { d with allocation := some ⟨"b", "c", "y", .machine, [], [], 0⟩, changed := 5 }
    let s := (history [.register idle, .claimMachine "m", .release "m", .claimMachine "m",
      .attach d ⟨"b", "c", "y", .machine, [], [], 0⟩ []]).store
    s.machine? "m" = some bound ∧ bound.changed ≠ c.changed ∧
    (s.finalizeOrUnwind 0 c {} .empty).1 = .error (.concurrentModification "m") ∧
    (s.finalizeOrUnwind 0 c {} .empty).2.machine? "m" =
      some { idle with waiting := false, changed := 6 } := by
  decide

end MachinePool
