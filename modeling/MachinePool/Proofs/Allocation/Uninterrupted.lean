import MachinePool.Proofs.Allocation.OneWrite
import MachinePool.Proofs.Planning.Addresses

/-!
Calls that nobody interrupts take effect as a whole or not at all.

A call that fails leaves the store as it was, and a call that answers a record
has put this record under its id and nothing else (`ChangesOnly`). This needs an
argument for an allocation alone, which writes twice: no step after its claim
can fail (`Store.finalize_of_claimFor`), so no claim of it stays behind. And
without other callers no copy gets outdated, so neither an allocation nor a
selection reports a lost race.

* `uninterrupted_calls_are_atomic`: all of this, for every reachable store.
-/

namespace MachinePool

/-! ### What a call answers -/

inductive Failure where
  | store (error : StoreError)
  | allocation (error : AllocationError)
  deriving DecidableEq, Repr

/-- The record a call wrote, or why it wrote none. -/
def answerOf {ε : Type} (failure : ε → Failure) :
    Except ε (Machine × Store) → Except Failure Machine
  | .ok (m, _) => .ok m
  | .error e => .error (failure e)

/-- A call answers the record that it returns with the store after it. -/
theorem answerOf_eq_ok_iff {ε : Type} {failure : ε → Failure}
    {result : Except ε (Machine × Store)} {m : Machine} :
    answerOf failure result = .ok m ↔ ∃ after, result = .ok (m, after) := by
  cases result with
  | error e => simp [answerOf]
  | ok written => simp [answerOf, Prod.ext_iff]

/-- What a call that writes machines answers. The other calls answer no record. -/
def Operation.answer (s : Store) : Operation → Option (Except Failure Machine)
  | register m => some (answerOf .store (s.register m))
  | replace old new => some (answerOf .store (s.replace old new))
  | claim copy => some (answerOf .allocation (s.claim copy))
  | claimMachine id => some (answerOf .allocation (s.claimMachine id))
  | selectAndClaim project partition size tags words =>
    some (answerOf .allocation (s.selectAndClaim project partition size tags words))
  | attach copy a tags => some (answerOf .allocation (s.attachAllocation copy a tags))
  | release id => some (answerOf .allocation (s.release id))
  | allocate now r words => some ((s.allocate now r words).1.mapError .allocation)
  | delete _ | putNetwork _ | putLease _ | putHeartbeat _ => none

/-- `after` is `before` with a machine under its id, and nothing else is different. -/
structure Store.ChangesOnly (before : Store) (m : Machine) (after : Store) : Prop where
  stored : after.machine? m.id = some m
  others : ∀ id, id ≠ m.id → after.machine? id = before.machine? id
  networks : after.networks = before.networks
  leases : after.leases = before.leases
  heartbeats : after.heartbeats = before.heartbeats

/-- A call either fails and leaves the store as it was, or has put the record it answers. -/
structure Store.Settles (before : Store) (answer : Except Failure Machine) (after : Store) :
    Prop where
  failed : ∀ e, answer = .error e → after = before
  wrote : ∀ m, answer = .ok m → before.ChangesOnly m after

/-- No machine of `after` is claimed and free that was not so in `before`. -/
def Store.LeavesNoClaim (before after : Store) : Prop :=
  ∀ id m, after.machine? id = some m → m.preallocated = true → m.isFree = true →
    before.machine? id = some m

variable {s after : Store} {m : Machine} {r : Request} {partition : String}
variable {words : Placement.RandomWords}

theorem Store.changesOnly_putMachine (s : Store) (m : Machine) :
    s.ChangesOnly m (s.putMachine m) where
  stored := machine?_putMachine_self s m
  others id other := by rw [machine?_putMachine, if_neg other]
  networks := rfl
  leases := rfl
  heartbeats := rfl

/-- A write changes the record of one machine and nothing else. -/
theorem Store.Wrote.changesOnly (write : s.Wrote m after) : s.ChangesOnly m after := by
  rw [write.store]
  exact s.changesOnly_putMachine m

/-- A bound machine under its id is no claim that stays behind. -/
theorem Store.leavesNoClaim_putMachine (held : m.isFree = false) :
    s.LeavesNoClaim (s.putMachine m) := by
  intro id stored found claimed free
  rw [machine?_putMachine] at found
  by_cases same : id = m.id
  · rw [if_pos same] at found
    cases found
    rw [held] at free
    cases free
  · rwa [if_neg same] at found

/-! ### Failures that are no lost race -/

abbrev NeverRaces {α : Type} (x : Except AllocationError α) : Prop :=
  FailsOnly (·.category ≠ .conflict) x

theorem BlamesRequest.neverRaces {α : Type} {x : Except AllocationError α}
    (h : BlamesRequest x) : NeverRaces x :=
  h.imp fun e blamed => by simp [blamed]

theorem blamesRequest_require (condition : Bool) (reason : String) :
    BlamesRequest (Request.require condition reason) := by
  cases condition with
  | true => exact .ok ()
  | false => exact .error rfl

theorem blamesRequest_checkAddresses (seen : List Address) (texts : List String) :
    BlamesRequest (Request.checkAddresses seen texts) := by
  induction texts generalizing seen with
  | nil => exact .ok ()
  | cons text rest ih =>
      have spelled : RefusedFor (text :: rest) (Request.readAddress text) :=
        refusedFor_readAddress List.mem_cons_self
      refine spelled.blamesRequest.bind fun a => ?_
      by_cases twice : a ∈ seen
      · rw [if_pos twice]
        exact .error rfl
      · rw [if_neg twice]
        exact ih (a :: seen)

theorem blamesRequest_checkKeys (lines : List String) :
    BlamesRequest (Request.checkKeys lines) := by
  induction lines with
  | nil => exact .ok ()
  | cons line rest ih =>
      unfold Request.checkKeys
      cases SshKey.check line with
      | ok _ => exact ih
      | error _ => exact .error rfl

/-- An invalid request is to blame itself. -/
theorem blamesRequest_validate (r : Request) : BlamesRequest r.validate := by
  refine (blamesRequest_require _ _).bind fun _ => ?_
  refine (blamesRequest_require _ _).bind fun _ => ?_
  refine (blamesRequest_require _ _).bind fun _ => ?_
  refine (blamesRequest_require _ _).bind fun _ => ?_
  refine (blamesRequest_checkAddresses _ _).bind fun _ => ?_
  refine (blamesRequest_checkKeys _).bind fun _ => ?_
  exact (blamesRequest_require _ _).bind fun _ => blamesRequest_require _ _

theorem blamesRequest_targetPartition (s : Store) (r : Request) :
    BlamesRequest (s.targetPartition r) := by
  unfold Store.targetPartition
  split
  · exact .ok _
  · split
    · exact .ok _
    · exact .error rfl

/-- Until a request is planned, only the request can be to blame. -/
theorem blamesRequest_prepare (s : Store) (r : Request) : BlamesRequest (s.prepare r) := by
  refine (blamesRequest_validate r).bind fun _ => ?_
  refine (blamesRequest_targetPartition s r).bind fun partition => ?_
  exact (refusedFor_plan s r partition _).blamesRequest.bind fun plan => .ok _

theorem blamesRequest_readUnclaimed (s : Store) (id : String) :
    BlamesRequest (s.readUnclaimed id) := by
  unfold Store.readUnclaimed
  split
  · exact .error rfl
  · split
    · exact .error rfl
    · exact .ok _

theorem neverRaces_candidates (s : Store) (partition size : String) :
    NeverRaces (s.candidates partition size) := by
  rw [Store.candidates_eq]
  split
  · exact .error nofun
  · exact .ok _

theorem neverRaces_drawSpread (available held : List Machine) (partition size : String)
    (tags : List String) (words : Placement.RandomWords) :
    NeverRaces (Store.drawSpread available held partition size tags words) := by
  unfold Store.drawSpread
  split
  · exact .ok _
  · exact .error nofun

/-- A selection fails for want of a machine only. -/
theorem neverRaces_select (s : Store) (project partition size : String) (tags : List String)
    (words : Placement.RandomWords) :
    NeverRaces (s.select project partition size tags words) :=
  (neverRaces_candidates s partition size).bind fun _ => neverRaces_drawSpread _ _ _ _ _ _

/-- Choosing a machine writes nothing, so it loses no race. -/
theorem neverRaces_chooseFor (s : Store) (r : Request) (partition : String)
    (words : Placement.RandomWords) : NeverRaces (s.chooseFor r partition words) := by
  unfold Store.chooseFor
  split
  · exact (blamesRequest_readUnclaimed s _).neverRaces
  · exact (neverRaces_select s _ _ _ _ _).map _

theorem neverRaces_boundFor (s : Store) (now : UInt64) (r : Request)
    (words : Placement.RandomWords) : NeverRaces (s.boundFor now r words) := by
  refine (blamesRequest_prepare s r).neverRaces.bind fun (partition, plan) => ?_
  exact (neverRaces_chooseFor s r partition words).bind fun m => .ok _

/-- Without other callers, a selected machine is claimed. -/
theorem neverRaces_selectAndClaim (reached : s.Reachable) (project partition size : String)
    (tags : List String) (words : Placement.RandomWords) :
    NeverRaces (s.selectAndClaim project partition size tags words) := by
  intro e failed
  rw [Store.selectAndClaim_eq] at failed
  cases selected : s.select project partition size tags words with
  | error e' =>
      rw [selected] at failed
      cases failed
      exact neverRaces_select s project partition size tags words _ selected
  | ok choice =>
      have stored := (Store.isCandidate_of_select reached selected).stored
      rw [selected] at failed
      cases (Store.claim_of_stored stored).symm.trans failed

/-! ### Calls as a whole -/

theorem Store.Settles.error (s : Store) (e : Failure) : s.Settles (.error e) s where
  failed _ _ := rfl
  wrote m answered := by cases answered

theorem Store.ChangesOnly.settles (changes : s.ChangesOnly m after) : s.Settles (.ok m) after where
  failed e failed := by cases failed
  wrote m' answered := by
    cases answered
    exact changes

/-- A call of one write settles. -/
theorem settles_settle {ε : Type} {failure : ε → Failure} {result : Except ε (Machine × Store)}
    (cause : Cause) (write : ∀ m after, result = .ok (m, after) → s.Wrote m after) :
    s.Settles (answerOf failure result) (settle cause s result).2 := by
  cases result with
  | error e => exact .error s (failure e)
  | ok written => exact (write written.1 written.2 rfl).changesOnly.settles

/-- The record an allocation leaves behind is held by a tenant. -/
theorem boundFor_held {now : UInt64} (bound : s.boundFor now r words = .ok m) :
    m.isFree = false := by
  obtain ⟨_, _, _, -, -, rfl⟩ := Store.boundFor_eq_ok_iff.mp bound
  rfl

/-- An allocation fails and leaves the store, or has put a machine that is bound to its tenant. -/
theorem allocate_cases (reached : s.Reachable) (now : UInt64) (r : Request)
    (words : Placement.RandomWords) :
    (∃ e, s.allocate now r words = (.error e, s) ∧ e.category ≠ .conflict) ∨
      ∃ m, s.allocate now r words = (.ok m, s.putMachine m) ∧ m.isFree = false := by
  rw [Store.allocate_eq reached]
  cases bound : s.boundFor now r words with
  | error e => exact .inl ⟨e, rfl, neverRaces_boundFor s now r words e bound⟩
  | ok m => exact .inr ⟨m, rfl, boundFor_held bound⟩

/-- Every call that writes machines settles: it fails without a trace or puts what it answers. -/
theorem settles_effect (reached : s.Reachable) {op : Operation}
    {answer : Except Failure Machine} (answers : op.answer s = some answer) :
    s.Settles answer (op.effect s).2 := by
  cases op with
  | register m =>
      cases answers
      exact settles_settle _ fun _ _ => Store.wrote_of_register
  | replace old new =>
      cases answers
      exact settles_settle _ fun _ _ => Store.wrote_of_replace
  | claim copy =>
      cases answers
      exact settles_settle _ fun _ _ => Store.wrote_of_claim
  | claimMachine id =>
      cases answers
      exact settles_settle _ fun _ _ => Store.wrote_of_claimMachine
  | selectAndClaim project partition size tags words =>
      cases answers
      exact settles_settle _ fun _ _ => Store.wrote_of_selectAndClaim
  | attach copy a tags =>
      cases answers
      exact settles_settle _ fun _ _ => Store.wrote_of_attachAllocation
  | release id =>
      cases answers
      exact settles_settle _ fun _ _ => Store.wrote_of_release
  | allocate now r words =>
      cases answers
      rw [Operation.effect, allocateEffect_store]
      rcases allocate_cases reached now r words with ⟨e, failed, -⟩ | ⟨m, allocated, -⟩
      · rw [failed]
        exact .error s (.allocation e)
      · rw [allocated]
        exact (s.changesOnly_putMachine m).settles
  | delete id => cases answers
  | putNetwork n => cases answers
  | putLease l => cases answers
  | putHeartbeat h => cases answers

/-- An allocation leaves no machine claimed that it does not bind. -/
theorem leavesNoClaim_allocate (reached : s.Reachable) (now : UInt64) (r : Request)
    (words : Placement.RandomWords) : s.LeavesNoClaim (s.allocate now r words).2 := by
  rcases allocate_cases reached now r words with ⟨e, failed, -⟩ | ⟨m, allocated, held⟩
  · rw [failed]
    exact fun id m found _ _ => found
  · rw [allocated]
    exact Store.leavesNoClaim_putMachine held

/-- What an allocation claims it can finalize, so that it has nothing to give up. -/
theorem exists_finalize (reached : s.Reachable) {claimed : Machine}
    (claims : s.claimFor r partition words = .ok (claimed, after)) (now : UInt64) (plan : Plan) :
    ∃ finalized, after.finalize now claimed r plan = .ok finalized := by
  cases chosen : s.chooseFor r partition words with
  | error e =>
      rw [Store.claimFor_of_chooseFor_error chosen] at claims
      cases claims
  | ok m =>
      obtain ⟨claims', finalized⟩ := Store.finalize_of_claimFor reached chosen now plan
      cases claims'.symm.trans claims
      exact ⟨_, finalized⟩

/-- Where nobody interrupts, a call that fails leaves all tables as they were, and a call that
answers a record has put this record under its id and nothing else. An allocation leaves no claim
behind, what it claims it can finalize, and neither it nor a selection reports a lost race. -/
theorem uninterrupted_calls_are_atomic {s : Store} (reached : s.Reachable) :
    (∀ (op : Operation) e, op.answer s = some (.error e) → (op.effect s).2 = s) ∧
    (∀ (op : Operation) m, op.answer s = some (.ok m) → s.ChangesOnly m (op.effect s).2) ∧
    (∀ now r words, s.LeavesNoClaim (s.allocate now r words).2) ∧
    (∀ now r words partition plan claimed after, s.prepare r = .ok (partition, plan) →
      s.claimFor r partition words = .ok (claimed, after) →
      ∃ finalized, after.finalize now claimed r plan = .ok finalized) ∧
    (∀ now r words id, (s.allocate now r words).1 ≠ .error (.concurrentModification id)) ∧
    ∀ project partition size tags words id,
      s.selectAndClaim project partition size tags words ≠
        .error (.concurrentModification id) := by
  refine ⟨fun op e answers => (settles_effect reached answers).failed e rfl,
    fun op m answers => (settles_effect reached answers).wrote m rfl,
    leavesNoClaim_allocate reached, ?finalized, ?allocate, ?select⟩
  case finalized =>
    intro now r words partition plan claimed after _ claims
    exact exists_finalize reached claims now plan
  case allocate =>
    intro now r words id failed
    rcases allocate_cases reached now r words with ⟨e, failed', noRace⟩ | ⟨m, allocated, -⟩
    · rw [failed'] at failed
      cases failed
      exact noRace rfl
    · rw [allocated] at failed
      cases failed
  case select =>
    intro project partition size tags words id failed
    exact neverRaces_selectAndClaim reached project partition size tags words _ failed rfl

/-- Calls that set up a partition with one live machine and one private network. -/
def Operation.smallPool : List Operation :=
  [.register (Machine.idle "m"), .putHeartbeat ⟨"m", .alive, 0⟩,
    .putNetwork ⟨"super", "", none, some "p", [], .privateSuper⟩,
    .putNetwork ⟨"net", "", some "x", some "p", [], .tenant "super" false⟩]

def Request.smallest : Request where
  creator := "c"
  project := "x"
  partition := some "p"
  size := some "s"
  networks := [⟨"net", none⟩]

/-- In the small pool a request is met as a whole, and to release the machine fails. -/
theorem small_pool_allocated_as_a_whole :
    let s := (history Operation.smallPool).store
    let bound := { Machine.idle "m" with
      waiting := false, preallocated := true, changed := 3,
      allocation := some ⟨"", "c", "x", .machine, [],
        [⟨"net", [], true, .privatePrimaryUnshared⟩], 0⟩ }
    s.Reachable ∧
    s.ChangesOnly bound ((Operation.allocate 0 .smallest ⟨[], 0⟩).effect s).2 ∧
    ((Operation.release "m").effect s).2 = s := by
  intro s bound
  have reached : s.Reachable := Store.reachable_history _
  obtain ⟨failed, answered, -⟩ := uninterrupted_calls_are_atomic reached
  have allocated : (Operation.allocate 0 .smallest ⟨[], 0⟩).answer s = some (.ok bound) := by
    decide
  have refused : (Operation.release "m").answer s =
      some (.error (.allocation (.machineNotClaimed "m"))) := by
    decide
  exact ⟨reached, answered _ _ allocated, failed _ _ refused⟩

end MachinePool
