import MachinePool.Proofs.Allocation.Steps
import MachinePool.Proofs.Placement.Candidates
import MachinePool.Proofs.Table

/-!
An allocation that nobody interrupts is one write.

The machine it claims was read just before (`chooseFor`), so the claim is current
and the finalization finds the claim it asks for. The claimed record is written
over at once, and what stays is the machine bound to the tenant (`boundFor`):
`allocate_eq` says that an allocation leaves this record or leaves nothing, and
`allocateEffect_cases` that it journals the claim before the bound record.
-/

namespace MachinePool

/-! ### The records an allocation writes -/

def Machine.claimed (m : Machine) : Machine :=
  { m with preallocated := true, changed := m.changed + 1 }

def Machine.boundTo (m : Machine) (a : Allocation) (tags : List String) : Machine :=
  { m with
    preallocated := true
    waiting := false
    allocation := some a
    tags := Store.mergeTags m.tags tags
    changed := m.changed + 2 }

namespace Store

variable {s : Store} {m : Machine} {a : Allocation} {tags : List String} {r : Request}
variable {partition : String} {words : Placement.RandomWords}

/-- Of two records written under one id the later one stays. -/
theorem putMachine_putMachine {first second : Machine} (same : first.id = second.id) :
    (s.putMachine first).putMachine second = s.putMachine second := by
  simp [putMachine, same]

/-- The stored record itself can be claimed. -/
theorem claim_of_stored (found : s.machine? m.id = some m) :
    s.claim m = .ok (m.claimed, s.putMachine m.claimed) :=
  claim_eq_ok_iff.mpr ⟨⟨m, found, rfl⟩, rfl, rfl⟩

/-- A claim that was just made can be finalized if the machine was free. -/
theorem attachAllocation_of_claimed (free : m.isFree = true) (a : Allocation)
    (tags : List String) :
    (s.putMachine m.claimed).attachAllocation m.claimed a tags =
      .ok (m.boundTo a tags, s.putMachine (m.boundTo a tags)) := by
  have current : (s.putMachine m.claimed).IsCurrent m.claimed :=
    ⟨m.claimed, machine?_putMachine_self s _, rfl⟩
  have twice : m.claimed.changed + 1 = m.changed + 2 := UInt64.add_assoc m.changed 1 1
  have written : { allocated m.claimed a tags with changed := m.claimed.changed + 1 } =
      m.boundTo a tags := by
    rw [twice]
    rfl
  have sameId : m.claimed.id = (m.boundTo a tags).id := rfl
  exact attachAllocation_eq_ok_iff.mpr
    ⟨rfl, free, current, written.symm, (putMachine_putMachine sameId).symm⟩

/-! ### Choosing the machine -/

/-- The copy an allocation claims: of the machine the request names, or of one selected for it. -/
def chooseFor (s : Store) (r : Request) (partition : String) (words : Placement.RandomWords) :
    Except AllocationError Machine :=
  match r.namedMachine with
  | some id => s.readUnclaimed id
  | none => (s.select r.project partition (r.size.getD "") r.tags words).map (·.1)

/-- A placement is the claim of the machine that is selected. -/
theorem selectAndClaim_eq (s : Store) (project partition size : String) (tags : List String)
    (words : Placement.RandomWords) :
    s.selectAndClaim project partition size tags words =
      ((s.select project partition size tags words).map (·.1) >>= s.claim) := by
  unfold selectAndClaim
  cases s.select project partition size tags words <;> rfl

/-- An allocation claims the copy that is chosen for the request. -/
theorem claimFor_eq (s : Store) (r : Request) (partition : String)
    (words : Placement.RandomWords) :
    s.claimFor r partition words = (s.chooseFor r partition words >>= s.claim) := by
  unfold claimFor chooseFor
  cases r.namedMachine with
  | some id => rfl
  | none => exact selectAndClaim_eq ..

theorem claimFor_of_chooseFor_error {e : AllocationError}
    (failed : s.chooseFor r partition words = .error e) :
    s.claimFor r partition words = .error e := by
  rw [claimFor_eq, failed]
  rfl

/-- What can be claimed by its id is stored as it was read. -/
theorem stored_of_readUnclaimed (reached : s.Reachable) {id : String}
    (read : s.readUnclaimed id = .ok m) :
    s.machine? m.id = some m ∧ m.isFree = true ∧ m.preallocated = false := by
  obtain ⟨found, free, unclaimed⟩ := readUnclaimed_eq_ok_iff.mp read
  exact ⟨by rw [reached.id_eq found]; exact found, free, unclaimed⟩

/-- The chosen machine is stored as it was read, and neither held nor claimed. -/
theorem stored_of_chooseFor (reached : s.Reachable)
    (chosen : s.chooseFor r partition words = .ok m) :
    s.machine? m.id = some m ∧ m.isFree = true ∧ m.preallocated = false := by
  unfold chooseFor at chosen
  cases named : r.namedMachine with
  | some id =>
      rw [named] at chosen
      exact stored_of_readUnclaimed reached chosen
  | none =>
      rw [named] at chosen
      obtain ⟨choice, selected, rfl⟩ := map_eq_ok_iff.mp chosen
      have candidate := isCandidate_of_select reached selected
      exact ⟨candidate.stored, by simp [Machine.isFree, candidate.free], candidate.unclaimed⟩

/-! ### Allocating -/

def boundFor (s : Store) (now : UInt64) (r : Request) (words : Placement.RandomWords) :
    Except AllocationError Machine := do
  let (partition, plan) ← s.prepare r
  let m ← s.chooseFor r partition words
  return m.boundTo (allocationOf now r plan) r.tags

/-- An allocation goes on as far as its request is planned and a machine is chosen. -/
theorem boundFor_eq_ok_iff {now : UInt64} {bound : Machine} :
    s.boundFor now r words = .ok bound ↔ ∃ partition plan m,
      s.prepare r = .ok (partition, plan) ∧ s.chooseFor r partition words = .ok m ∧
        m.boundTo (allocationOf now r plan) r.tags = bound := by
  simp only [boundFor, bind_eq_ok_iff, pure, Except.pure, Except.ok.injEq, Prod.exists,
    exists_and_left]

/-- The finalization of an allocation finds its claim as it was made. -/
theorem finalize_of_claimFor (reached : s.Reachable)
    (chosen : s.chooseFor r partition words = .ok m) (now : UInt64) (plan : Plan) :
    s.claimFor r partition words = .ok (m.claimed, s.putMachine m.claimed) ∧
      (s.putMachine m.claimed).finalize now m.claimed r plan =
        .ok (m.boundTo (allocationOf now r plan) r.tags,
          s.putMachine (m.boundTo (allocationOf now r plan) r.tags)) := by
  obtain ⟨stored, free, -⟩ := stored_of_chooseFor reached chosen
  constructor
  · rw [claimFor_eq, chosen]
    exact claim_of_stored stored
  · exact attachAllocation_of_claimed free _ _

/-- An allocation leaves one bound record, or it fails and leaves the store as it was. -/
theorem allocate_eq (reached : s.Reachable) (now : UInt64) (r : Request)
    (words : Placement.RandomWords) :
    s.allocate now r words =
      match s.boundFor now r words with
      | .ok bound => (.ok bound, s.putMachine bound)
      | .error e => (.error e, s) := by
  unfold allocate boundFor
  cases prepared : s.prepare r with
  | error e => rfl
  | ok parts =>
      obtain ⟨partition, plan⟩ := parts
      cases chosen : s.chooseFor r partition words with
      | error e =>
          simp only [claimFor_of_chooseFor_error chosen, bind, Except.bind, chosen]
      | ok m =>
          obtain ⟨claimed, finalized⟩ := finalize_of_claimFor reached chosen now plan
          simp only [claimed, finalizeOrUnwind, finalized, bind, Except.bind, chosen, pure,
            Except.pure]

/-- An allocation writes nothing, or it claims a stored machine that is free and binds it. -/
theorem allocateEffect_cases (reached : s.Reachable) (now : UInt64) (r : Request)
    (words : Placement.RandomWords) :
    allocateEffect s now r words = ([], s) ∨
      ∃ m a tags, s.machine? m.id = some m ∧ m.isFree = true ∧
        allocateEffect s now r words =
          ([.wrote .claim m.claimed, .wrote .allocation (m.boundTo a tags)],
            s.putMachine (m.boundTo a tags)) := by
  unfold allocateEffect
  cases prepared : s.prepare r with
  | error e => exact .inl rfl
  | ok parts =>
      obtain ⟨partition, plan⟩ := parts
      cases chosen : s.chooseFor r partition words with
      | error e =>
          left
          simp only [claimFor_of_chooseFor_error chosen]
      | ok m =>
          right
          obtain ⟨stored, free, -⟩ := stored_of_chooseFor reached chosen
          obtain ⟨claimed, finalized⟩ := finalize_of_claimFor reached chosen now plan
          refine ⟨m, allocationOf now r plan, r.tags, stored, free, ?_⟩
          simp only [claimed, finalized]

/-- An allocation answers the record it leaves behind. -/
theorem allocate_eq_ok_iff (reached : s.Reachable) {now : UInt64} {bound : Machine} :
    (s.allocate now r words).1 = .ok bound ↔ s.boundFor now r words = .ok bound := by
  rw [allocate_eq reached]
  cases s.boundFor now r words <;> rfl

end Store

end MachinePool
