import MachinePool.Proofs.Journal.Callers
import MachinePool.Proofs.Journal.Tenancy

/-!
Machines that tenants hold are out of the pool.

A record with an allocation is claimed and does not wait. This cannot be said of
the stored records alone: a copy is written back as a whole, so whatever a caller
holds may be stored again, and a finalization looks at the copy it is given. It
is said here of every record that was ever written (`Machine.OutOfPoolIfHeld`).
Then it does not matter whether a copy is taken for current by mistake, and runs
may be as long as they like and delete machines.

* `held_machines_out_of_pool`: in every store that calls with genuine copies lead
  to, a machine with an allocation is claimed, does not wait, is no candidate,
  and is handed out to nobody.
-/

namespace MachinePool

variable {journal : List Entry} {s after : Store} {m : Machine} {cause : Cause} {id : String}

/-- Whether the record of a machine that a tenant holds keeps it out of the pool. -/
def Machine.OutOfPoolIfHeld (m : Machine) : Prop :=
  m.isFree = false → m.preallocated = true ∧ m.waiting = false

/-- A record without an allocation holds nothing out. -/
theorem Machine.outOfPoolIfHeld_of_free (free : m.isFree = true) : m.OutOfPoolIfHeld := by
  intro held
  rw [free] at held
  cases held

/-- A write made from a copy that is out of the pool if it is held makes such a record. -/
theorem GenuineWrite.outOfPoolIfHeld (write : GenuineWrite journal s cause m after)
    (copies : ∀ copy, IsCopy journal copy → copy.OutOfPoolIfHeld) : m.OutOfPoolIfHeld := by
  cases write with
  | register registered =>
      obtain ⟨free, rfl, -⟩ := Store.register_eq_ok_iff.mp registered
      exact Machine.outOfPoolIfHeld_of_free free
  | report _ free replaced =>
      obtain ⟨-, -, rfl, -⟩ := Store.replace_eq_ok_iff.mp replaced
      exact Machine.outOfPoolIfHeld_of_free free
  | @claim copy _ _ isCopy claimed =>
      obtain ⟨-, rfl, -⟩ := Store.claim_eq_ok_iff.mp claimed
      -- A held copy may be claimed once more, and it does not wait.
      intro held
      exact ⟨rfl, (copies copy isCopy held).2⟩
  | attach _ attached =>
      obtain ⟨claimed, -, -, rfl, -⟩ := Store.attachAllocation_eq_ok_iff.mp attached
      intro _
      exact ⟨claimed, rfl⟩
  | release _ replaced =>
      obtain ⟨-, -, rfl, -⟩ :=
        Store.replace_eq_ok_iff.mp (Store.replaceCopy_eq_ok_iff.mp replaced)
      exact Machine.outOfPoolIfHeld_of_free rfl

/-- Whatever was written is out of the pool if it is held. -/
theorem Chronicle.outOfPoolIfHeld (chronicle : Chronicle journal s) {copy : Machine}
    (isCopy : IsCopy journal copy) : copy.OutOfPoolIfHeld := by
  induction chronicle generalizing copy with
  | start =>
      obtain ⟨_, mem⟩ := isCopy
      cases mem
  | other _ _ ih => exact ih isCopy
  | write _ write ih =>
      rcases isCopy_wrote_iff.mp isCopy with earlier | rfl
      · exact ih earlier
      · apply write.outOfPoolIfHeld
        intro copy isCopy
        exact ih isCopy
  | delete id _ ih => exact ih (isCopy_deleted_iff.mp isCopy)

/-- A claimed machine is not found by a search for candidates. -/
theorem ne_of_mem_candidates (reached : s.Reachable) (stored : s.machine? id = some m)
    (claimed : m.preallocated = true) {partition size : String} {found : List Machine}
    (searched : s.candidates partition size = .ok found) {candidate : Machine}
    (mem : candidate ∈ found) : candidate.id ≠ id := by
  obtain ⟨rfl, -⟩ := Store.candidates_eq_ok_iff.mp searched
  have isCandidate := (Store.mem_available_iff reached).mp mem
  rintro rfl
  rw [isCandidate.stored] at stored
  cases stored
  rw [isCandidate.unclaimed] at claimed
  cases claimed

/-- However callers use genuine copies, outdated ones and those of deleted machines included, every
record that was ever written with an allocation is claimed and does not wait. So a stored machine
with an allocation is no candidate, cannot be claimed by its id and is handed out by no other call
either. -/
theorem held_machines_out_of_pool (run : CallerRun journal s) :
    (∀ copy, IsCopy journal copy → copy.isFree = false →
      copy.preallocated = true ∧ copy.waiting = false) ∧
    ∀ id m, s.machine? id = some m → m.isFree = false →
      (m.preallocated = true ∧ m.waiting = false) ∧
      (∀ partition size found, s.candidates partition size = .ok found →
        ∀ candidate ∈ found, candidate.id ≠ id) ∧
      s.PassesBy id := by
  constructor
  · intro copy isCopy held
    exact run.chronicle.outOfPoolIfHeld isCopy held
  · intro id m stored held
    have out := run.chronicle.outOfPoolIfHeld (run.isCopy_of_stored stored) held
    obtain ⟨a, carries⟩ : ∃ a, m.allocation = some a :=
      Option.isSome_iff_exists.mp (by simpa [Machine.isFree] using held)
    refine ⟨out, ?searched, passesBy_of_binds run.reachable ⟨m, stored, carries⟩⟩
    intro partition size found searched candidate mem
    exact ne_of_mem_candidates run.reachable stored out.1 searched mem

/-- A claim that was made before the machine was deleted is finalized over the claim of somebody
else. Even so the machine is out of the pool. -/
theorem finalized_old_claim_out_of_pool :
    let idle := Machine.idle "m"
    let c := { idle with preallocated := true, changed := 2 }
    let a : Allocation := ⟨"a", "c", "x", .machine, [], [], 0⟩
    let bound := { c with waiting := false, allocation := some a, changed := 3 }
    ∃ journal s, CallerRun journal s ∧ .deleted "m" ∈ journal ∧ s.machine? "m" = some bound ∧
      bound.preallocated = true ∧ bound.waiting = false ∧ s.PassesBy "m" := by
  intro idle c a bound
  have claimed := (CallerRun.start.call (.register idle) trivial).call (.claimMachine "m") trivial
  have registered := (claimed.call (.delete "m") trivial).call (.register idle) trivial
  have claimedAgain := registered.call (.claimMachine "m") trivial
  have finalized := claimedAgain.call (.attach c a []) ⟨.claim, by decide⟩
  obtain ⟨-, out⟩ := held_machines_out_of_pool finalized
  obtain ⟨⟨claimed, idles⟩, -, passed⟩ := out "m" bound (by decide) rfl
  exact ⟨_, _, finalized, by decide, by decide, claimed, idles, passed⟩

end MachinePool
