import MachinePool.Proofs.Allocation.OneWrite
import MachinePool.Proofs.Journal.Loading
import MachinePool.Proofs.Journal.StaleCopy
import Mathlib.Data.List.TakeWhile

/-!
How long a machine stays bound to its tenant.

A placement and a claim by id pass a bound machine by, so they neither hand it
out nor end its binding (`passesBy_of_binds`). Two calls write over it: a
registration under its id, which looks at the record it is given and not at the
stored one, and the claim or finalization of a copy that carries the stored
marker without being the stored record (`Operation.Overwrites`).

* `binding_lasts_iff`: through every run in which the machine is neither updated
  nor released nor deleted, its binding lasts exactly as long as neither of the
  two occurs.
-/

namespace MachinePool

variable {s after : Store} {id : String} {a : Allocation} {m copy : Machine} {op : Operation}

/-! ### Bindings -/

def Store.Binds (s : Store) (id : String) (a : Allocation) : Prop :=
  ∃ m, s.machine? id = some m ∧ m.allocation = some a

/-- Neither a claim by id nor a placement hands the machine out. -/
structure Store.PassesBy (s : Store) (id : String) : Prop where
  claimMachine : s.claimMachine id = .error (.machineAlreadyAllocated id)
  selectAndClaim : ∀ project partition size tags words m after,
    s.selectAndClaim project partition size tags words = .ok (m, after) → m.id ≠ id
  allocate : ∀ now r words m, (s.allocate now r words).1 = .ok m → m.id ≠ id

/-- Whether a call leaves the end of a binding to others: it is no update of a copy, and it neither
releases nor deletes the machine. -/
def Operation.Spares (id : String) (s : Store) : Operation → Prop
  | replace .. => False
  | release released => released = id → ∀ written, s.release released ≠ .ok written
  | delete deleted => deleted = id → (s.deleteMachine deleted).1 = false
  | _ => True

/-- Whether a call puts a record with another allocation, or with none, in place of a bound one. -/
def Operation.Overwrites (id : String) (a : Allocation) (s : Store) : Operation → Prop
  | register m => m.id = id ∧ m.isFree = true
  | claim copy => copy.id = id ∧ s.IsCurrent copy ∧ copy.allocation ≠ some a
  | attach copy b _ =>
    copy.id = id ∧ s.IsCurrent copy ∧ copy.preallocated = true ∧ copy.isFree = true ∧ b ≠ a
  | _ => False

theorem binds_putMachine_iff :
    (s.putMachine m).Binds id a ↔
      if m.id = id then m.allocation = some a else s.Binds id a := by
  unfold Store.Binds
  rw [Store.machine?_putMachine]
  by_cases same : m.id = id
  · simp [same]
  · simp [same, Ne.symm same]

theorem binds_congr (same : after.machine? id = s.machine? id) :
    after.Binds id a ↔ s.Binds id a := by
  unfold Store.Binds
  rw [same]

/-- A stored machine that is free is not the bound one. -/
theorem ne_of_free (bound : s.Binds id a) (stored : s.machine? m.id = some m)
    (free : m.isFree = true) : m.id ≠ id := by
  rintro rfl
  obtain ⟨held, found, carries⟩ := bound
  rw [stored] at found
  cases found
  simp [Machine.isFree, carries] at free

/-- What a call of one write leaves when it writes another machine. -/
theorem machine?_settle {ε : Type} {result : Except ε (Machine × Store)} (cause : Cause)
    (other : ∀ m after, result = .ok (m, after) → s.Wrote m after ∧ m.id ≠ id) :
    (settle cause s result).2.machine? id = s.machine? id := by
  cases result with
  | error e => rfl
  | ok written =>
      obtain ⟨write, other⟩ := other written.1 written.2 rfl
      simp only [settle]
      rw [write.store, Store.machine?_putMachine, if_neg other.symm]

/-! ### Calls that pass a bound machine by -/

section Reached

variable (reached : s.Reachable) (bound : s.Binds id a)

include reached bound

/-- A claim by id does not get a bound machine. -/
theorem ne_of_claimMachine {asked : String}
    (claimed : s.claimMachine asked = .ok (m, after)) : m.id ≠ id := by
  obtain ⟨copy, read, claimed⟩ := Store.claimMachine_eq_ok_iff.mp claimed
  obtain ⟨stored, free, -⟩ := Store.stored_of_readUnclaimed reached read
  obtain ⟨-, rfl, -⟩ := Store.claim_eq_ok_iff.mp claimed
  have other : copy.id ≠ id := ne_of_free bound stored free
  exact other

/-- A placement does not get a bound machine. -/
theorem ne_of_selectAndClaim {project partition size : String} {tags : List String}
    {words : Placement.RandomWords}
    (claimed : s.selectAndClaim project partition size tags words = .ok (m, after)) :
    m.id ≠ id := by
  obtain ⟨copy, _, selected, claimed⟩ := Store.exists_claim_of_selectAndClaim claimed
  have candidate := Store.isCandidate_of_select reached selected
  obtain ⟨-, rfl, -⟩ := Store.claim_eq_ok_iff.mp claimed
  have other : copy.id ≠ id :=
    ne_of_free bound candidate.stored (by simp [Machine.isFree, candidate.free])
  exact other

/-- An allocation does not get a bound machine. -/
theorem ne_of_boundFor {now : UInt64} {r : Request} {words : Placement.RandomWords}
    (allocated : s.boundFor now r words = .ok m) : m.id ≠ id := by
  obtain ⟨_, _, copy, -, chosen, rfl⟩ := Store.boundFor_eq_ok_iff.mp allocated
  obtain ⟨stored, free, -⟩ := Store.stored_of_chooseFor reached chosen
  have other : copy.id ≠ id := ne_of_free bound stored free
  exact other

/-- A bound machine is handed out to nobody. -/
theorem passesBy_of_binds : s.PassesBy id where
  claimMachine := by
    obtain ⟨held, found, carries⟩ := bound
    simp [Store.claimMachine, Store.readUnclaimed, found, Machine.isFree, carries,
      reached.id_eq found, bind, Except.bind]
  selectAndClaim _ _ _ _ _ _ _ := ne_of_selectAndClaim reached bound
  allocate _ _ _ _ allocated :=
    ne_of_boundFor reached bound ((Store.allocate_eq_ok_iff reached).mp allocated)

/-- An allocation leaves the record of a bound machine as it is. -/
theorem machine?_allocateEffect (now : UInt64) (r : Request) (words : Placement.RandomWords) :
    (allocateEffect s now r words).2.machine? id = s.machine? id := by
  rw [allocateEffect_store, Store.allocate_eq reached]
  cases left : s.boundFor now r words with
  | error e => rfl
  | ok m =>
      have other := ne_of_boundFor reached bound left
      exact (Store.machine?_putMachine s m id).trans (if_neg other.symm)

end Reached

/-! ### Releases and deletions of other machines -/

theorem ne_of_release (reached : s.Reachable) {released : String}
    (spares : (Operation.release released).Spares id s)
    (freed : s.release released = .ok (m, after)) : m.id ≠ id := by
  obtain ⟨held, found, -, replaced⟩ := Store.release_eq_ok_iff.mp freed
  obtain ⟨-, -, rfl, -⟩ := Store.replace_eq_ok_iff.mp replaced
  have heldId : held.id = released := reached.id_eq found
  rintro same
  exact spares (heldId.symm.trans same) _ freed

theorem machine?_deleteMachine_of_spares (bound : s.Binds id a) {deleted : String}
    (spares : (Operation.delete deleted).Spares id s) :
    (s.deleteMachine deleted).2.machine? id = s.machine? id := by
  obtain ⟨held, found, -⟩ := bound
  have other : id ≠ deleted := by
    rintro rfl
    have absent := spares rfl
    simp only [Store.deleteMachine, Table.contains] at absent
    rw [show s.machines.get? id = some held from found] at absent
    cases absent
  rw [Store.machine?_deleteMachine, if_neg other]

/-! ### Calls that may write over it -/

/-- A call of one write that succeeds leaves what it wrote. -/
theorem binds_settle_iff {ε : Type} {result : Except ε (Machine × Store)} (cause : Cause)
    (ok : result = .ok (m, s.putMachine m)) :
    (settle cause s result).2.Binds id a ↔
      if m.id = id then m.allocation = some a else s.Binds id a := by
  rw [ok]
  exact binds_putMachine_iff

section Bound

variable (bound : s.Binds id a)

include bound

/-- A binding outlasts exactly the registrations that do not overwrite it. -/
theorem binds_register_iff :
    ((Operation.register m).effect s).2.Binds id a ↔
      ¬ (Operation.register m).Overwrites id a s := by
  cases free : m.isFree with
  | false =>
      obtain ⟨e, failed⟩ := exists_register_error free s
      simp [Operation.effect, Operation.Overwrites, failed, settle, free, bound]
  | true =>
      have none : m.allocation = none := Option.isNone_iff_eq_none.mp free
      rw [Operation.effect, binds_settle_iff .registration
        (Store.register_eq_ok_iff.mpr ⟨free, rfl, rfl⟩)]
      simp [Operation.Overwrites, free, none, bound]

/-- A binding outlasts exactly the claims that do not overwrite it. -/
theorem binds_claim_iff :
    ((Operation.claim copy).effect s).2.Binds id a ↔ ¬ (Operation.claim copy).Overwrites id a s := by
  by_cases current : s.IsCurrent copy
  · rw [Operation.effect, binds_settle_iff .claim (Store.claim_eq_ok_iff.mpr ⟨current, rfl, rfl⟩)]
    simp [Operation.Overwrites, current, bound]
  · have unchanged : ((Operation.claim copy).effect s).2.machine? id = s.machine? id :=
      machine?_settle .claim fun m after ok => absurd (Store.claim_eq_ok_iff.mp ok).1 current
    rw [binds_congr unchanged]
    simp [Operation.Overwrites, current, bound]

/-- A binding outlasts exactly the finalizations that do not overwrite it. -/
theorem binds_attach_iff {b : Allocation} {tags : List String} :
    ((Operation.attach copy b tags).effect s).2.Binds id a ↔
      ¬ (Operation.attach copy b tags).Overwrites id a s := by
  by_cases fit : s.IsCurrent copy ∧ copy.preallocated = true ∧ copy.isFree = true
  · obtain ⟨current, claimed, free⟩ := fit
    rw [Operation.effect, binds_settle_iff .allocation
      (Store.attachAllocation_eq_ok_iff.mpr ⟨claimed, free, current, rfl, rfl⟩)]
    simp [Operation.Overwrites, Store.allocated, current, claimed, free, bound]
  · have unchanged : ((Operation.attach copy b tags).effect s).2.machine? id = s.machine? id :=
      machine?_settle .allocation fun m after ok => by
        obtain ⟨claimed, free, current, -⟩ := Store.attachAllocation_eq_ok_iff.mp ok
        exact absurd ⟨current, claimed, free⟩ fit
    rw [binds_congr unchanged]
    refine iff_of_true bound ?_
    rintro ⟨-, current, claimed, free, -⟩
    exact fit ⟨current, claimed, free⟩

end Bound

/-- A call that spares a bound machine ends its binding exactly when it overwrites it. -/
theorem binds_effect_iff (reached : s.Reachable) (bound : s.Binds id a)
    (spares : op.Spares id s) : (op.effect s).2.Binds id a ↔ ¬ op.Overwrites id a s := by
  -- Most calls write other machines at most.
  have untouched : (op.effect s).2.machine? id = s.machine? id → ¬ op.Overwrites id a s →
      ((op.effect s).2.Binds id a ↔ ¬ op.Overwrites id a s) := fun same kept =>
    iff_of_true ((binds_congr same).mpr bound) kept
  cases op with
  | register m => exact binds_register_iff bound
  | replace old new => cases spares
  | claim copy => exact binds_claim_iff bound
  | claimMachine asked =>
      refine untouched (machine?_settle .claim fun m after h => ?_) not_false
      exact ⟨Store.wrote_of_claimMachine h, ne_of_claimMachine reached bound h⟩
  | selectAndClaim project partition size tags words =>
      refine untouched (machine?_settle .claim fun m after h => ?_) not_false
      exact ⟨Store.wrote_of_selectAndClaim h, ne_of_selectAndClaim reached bound h⟩
  | attach copy b tags => exact binds_attach_iff bound
  | release released =>
      refine untouched (machine?_settle .release fun m after h => ?_) not_false
      exact ⟨Store.wrote_of_release h, ne_of_release reached spares h⟩
  | allocate now r words => exact untouched (machine?_allocateEffect reached bound ..) not_false
  | delete deleted =>
      exact untouched (machine?_deleteMachine_of_spares bound spares) not_false
  | putNetwork n => exact untouched rfl not_false
  | putLease l => exact untouched rfl not_false
  | putHeartbeat h => exact untouched rfl not_false

/-! ### Copies -/

/-- A copy that is the stored record if it is current writes over no binding. -/
theorem not_overwrites_of_stored (bound : s.Binds id a) (stored : s.IsCurrent copy →
    s.machine? id = some copy) (b : Allocation) (tags : List String) :
    ¬ (Operation.claim copy).Overwrites id a s ∧
      ¬ (Operation.attach copy b tags).Overwrites id a s := by
  obtain ⟨held, found, carries⟩ := bound
  have isHeld : s.IsCurrent copy → copy.allocation = some a := fun current => by
    cases (stored current).symm.trans found
    exact carries
  constructor
  · rintro ⟨-, current, other⟩
    exact other (isHeld current)
  · rintro ⟨-, current, -, free, -⟩
    simp [Machine.isFree, isHeld current] at free

/-! ### Runs -/

/-- Loading an inventory spares every machine, and overwrites those that it registers. -/
theorem Inventory.spares_of_mem_calls {i : Inventory} {clock : String → UInt64} {call : Operation}
    (mem : call ∈ i.calls clock) (s : Store) :
    call.Spares id s ∧ (call.Overwrites id a s ↔ ∃ m, call = .register m ∧ m.id = id) := by
  simp only [Inventory.calls, List.mem_append, List.mem_map, or_assoc] at mem
  rcases mem with ⟨n, -, rfl⟩ | ⟨l, -, rfl⟩ | ⟨m, listed, rfl⟩ | mem
  · simp [Operation.Spares, Operation.Overwrites]
  · simp [Operation.Spares, Operation.Overwrites]
  · have free : m.isFree = true := List.mem_takeWhile_imp listed
    simp [Operation.Spares, Operation.Overwrites, free]
  · by_cases all : i.machines.all (·.isFree) = true
    · rw [if_pos all] at mem
      obtain ⟨report, -, rfl⟩ := List.mem_map.mp mem
      simp [Operation.Spares, Operation.Overwrites]
    · rw [if_neg all] at mem
      cases mem

section Run

variable {before ops : List Operation}
variable (spares : ∀ early op late, ops = early ++ op :: late →
  op.Spares id (history (before ++ early)).store)

include spares

/-- One more call of the run keeps the binding exactly when it does not overwrite it. -/
theorem binds_concat_iff {early late : List Operation} {op : Operation}
    (split : ops = early ++ op :: late) (bound : (history (before ++ early)).store.Binds id a) :
    (history (before ++ (early ++ [op]))).store.Binds id a ↔
      ¬ op.Overwrites id a (history (before ++ early)).store := by
  have next : history (before ++ (early ++ [op])) = (history (before ++ early)).perform op := by
    rw [← List.append_assoc]
    exact History.performAll_append _ (before ++ early) [op]
  rw [next]
  exact binds_effect_iff (Store.reachable_history _) bound (spares early op late split)

/-- A binding lasts through a run exactly as long as no call overwrites it. -/
theorem binds_throughout_iff (bound : (history before).store.Binds id a) :
    (∀ early, early <+: ops → (history (before ++ early)).store.Binds id a) ↔
      ∀ early op late, ops = early ++ op :: late →
        ¬ op.Overwrites id a (history (before ++ early)).store := by
  constructor
  · intro lasts early op late split
    have upTo : early <+: ops := ⟨op :: late, split.symm⟩
    have beyond : early ++ [op] <+: ops := ⟨late, by simp [split]⟩
    exact (binds_concat_iff spares split (lasts early upTo)).mp (lasts _ beyond)
  · intro kept early
    -- By induction on the calls made so far, the last one of which keeps the binding.
    induction early using List.reverseRecOn with
    | nil =>
        intro _
        rw [List.append_nil]
        exact bound
    | append_singleton early op ih =>
        rintro ⟨late, split⟩
        have split' : ops = early ++ op :: late := by simpa using split.symm
        have sofar := ih ⟨op :: late, split'.symm⟩
        exact (binds_concat_iff spares split' sofar).mpr (kept early op late split')

end Run

/-- Through every run in which a bound machine is neither updated nor released nor deleted, its
binding lasts exactly as long as no call overwrites it: no registration of a free record under its
id, and no claim or finalization of a copy that is current and not the stored record. As long as it
lasts, the machine is handed out to nobody. A copy that was read after the machine was last deleted
never overwrites. Loading an inventory is part of such runs and overwrites the machines it
registers. -/
theorem binding_lasts_iff (before ops : List Operation) (id : String) (a : Allocation)
    (bound : (history before).store.Binds id a)
    (spares : ∀ early op late, ops = early ++ op :: late →
      op.Spares id (history (before ++ early)).store) :
    ((∀ early, early <+: ops → (history (before ++ early)).store.Binds id a) ↔
      ∀ early op late, ops = early ++ op :: late →
        ¬ op.Overwrites id a (history (before ++ early)).store) ∧
    (∀ early, early <+: ops → (history (before ++ early)).store.Binds id a →
      (history (before ++ early)).store.PassesBy id) ∧
    (∀ early read later copy, before ++ early = read ++ later →
      (history (before ++ early)).store.Binds id a →
      (history read).store.machine? id = some copy → .delete id ∉ later →
      writesSinceDeletion id (before ++ early) < 2 ^ 64 → ∀ b tags,
      ¬ (Operation.claim copy).Overwrites id a (history (before ++ early)).store ∧
      ¬ (Operation.attach copy b tags).Overwrites id a (history (before ++ early)).store) ∧
    ∀ clock i,
      ((history (before ++ ops)).store.load clock i).2 =
        (history (before ++ ops ++ i.calls clock)).store ∧
      ∀ call ∈ i.calls clock, ∀ s, call.Spares id s ∧
        (call.Overwrites id a s ↔ ∃ m, call = .register m ∧ m.id = id) := by
  refine ⟨binds_throughout_iff spares bound, ?passed, ?copies, ?loading⟩
  case passed =>
    intro early _ lasts
    exact passesBy_of_binds (Store.reachable_history _) lasts
  case copies =>
    intro early read later copy whole lasts found kept few b tags
    rw [whole] at lasts few ⊢
    exact not_overwrites_of_stored lasts (stored_of_current_copy found kept few) b tags
  case loading =>
    intro clock i
    have loaded : history (before ++ ops ++ i.calls clock) =
        (history (before ++ ops)).performAll (i.calls clock) :=
      History.performAll_append _ (before ++ ops) _
    rw [loaded]
    exact ⟨load_store _ clock i, fun call mem s => Inventory.spares_of_mem_calls mem s⟩

/-- A binding lasts beside calls for other machines and beside attempts to claim the bound one. -/
theorem binding_lasts_beside_other_calls :
    let idle := Machine.idle "m"
    let c := { idle with preallocated := true, changed := 2 }
    let a : Allocation := ⟨"a", "c", "x", .machine, [], [], 0⟩
    let before : List Operation := [.register idle, .claimMachine "m", .attach c a []]
    let ops : List Operation := [.register (Machine.idle "n"), .claimMachine "m",
      .claimMachine "n", .release "n"]
    (history before).store.Binds "m" a ∧ (history (before ++ ops)).store.Binds "m" a ∧
    (history (before ++ ops)).store.PassesBy "m" := by
  intro idle c a before ops
  have bound : (history before).store.Binds "m" a :=
    ⟨{ c with waiting := false, allocation := some a, changed := 3 }, by decide, rfl⟩
  have calls : ∀ op ∈ ops, ∀ s, op.Spares "m" s ∧ ¬ op.Overwrites "m" a s := by
    simp [ops, Machine.idle, Operation.Spares, Operation.Overwrites]
  have among : ∀ {early op late}, ops = early ++ op :: late → op ∈ ops := fun split => by
    simp [split]
  obtain ⟨lasts, passed, -⟩ := binding_lasts_iff before ops "m" a bound
    fun early op late split => (calls op (among split) _).1
  have whole := lasts.mpr (fun early op late split => (calls op (among split) _).2) ops
    List.prefix_rfl
  exact ⟨bound, whole, passed ops List.prefix_rfl whole⟩

/-- A registration ends a binding: the stored record of the bound machine is overwritten, and the
machine is handed out again. -/
theorem binding_ended_by_registration :
    let idle := Machine.idle "m"
    let c := { idle with preallocated := true, changed := 2 }
    let bound := { c with
      waiting := false, allocation := some ⟨"a", "c", "x", .machine, [], [], 0⟩, changed := 3 }
    let before : List Operation := [.register idle, .claimMachine "m", .attach c
      ⟨"a", "c", "x", .machine, [], [], 0⟩ []]
    let s := (history (before ++ [.register idle])).store
    (history before).store.machine? "m" = some bound ∧
    s.machine? "m" = some { idle with changed := 4 } ∧
    (s.claimMachine "m").isOk = true := by
  decide

/-- So does the finalization of a claim that was made before the machine was deleted, when the
machine has been written as often since. -/
example :
    let idle := Machine.idle "m"
    let old := { idle with preallocated := true, changed := 3 }
    let c := { idle with preallocated := true, changed := 2 }
    let read : List Operation := [.register idle, .register idle, .claimMachine "m"]
    let bound := { c with
      waiting := false, allocation := some ⟨"a", "c", "x", .machine, [], [], 0⟩, changed := 3 }
    let run := read ++ [.delete "m", .register idle, .claimMachine "m", .attach c
      ⟨"a", "c", "x", .machine, [], [], 0⟩ []]
    (history read).store.machine? "m" = some old ∧
    (history run).store.machine? "m" = some bound ∧
    (history (run ++ [.attach old ⟨"b", "c", "y", .machine, [], [], 0⟩ []])).store.machine? "m" =
      some { bound with
        allocation := some ⟨"b", "c", "y", .machine, [], [], 0⟩, changed := 4 } := by
  decide

end MachinePool
