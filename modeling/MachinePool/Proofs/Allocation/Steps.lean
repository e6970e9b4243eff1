import MachinePool.Allocation.Engine
import MachinePool.Proofs.Store.Write

/-!
When the steps of an allocation succeed, and what they write.

Claiming, attaching an allocation and releasing are one replacement each, of
the copy in hand by a record made from it. A machine that is selected is one of
the candidates, and a claim for a request claims a copy that was read just
before.
-/

namespace MachinePool

/-- Whether a machine is claimed for a tenant or held by one. -/
def Machine.isTaken (m : Machine) : Bool := m.preallocated || !m.isFree

namespace Store

variable {s s' : Store} {copy old new written : Machine} {id : String}

/-! ### Replacing a copy -/

theorem replaceCopy_eq_ok_iff :
    s.replaceCopy old new = .ok (written, s') ↔ s.replace old new = .ok (written, s') := by
  unfold replaceCopy
  split <;> simp_all

theorem wrote_of_replaceCopy (h : s.replaceCopy old new = .ok (written, s')) :
    Wrote s written s' :=
  wrote_of_replace (replaceCopy_eq_ok_iff.mp h)

/-! ### Claiming -/

/-- A copy can be claimed exactly if it is current. -/
theorem claim_eq_ok_iff :
    s.claim copy = .ok (written, s') ↔
      s.IsCurrent copy ∧ written = { copy with preallocated := true, changed := copy.changed + 1 } ∧
        s' = s.putMachine written := by
  rw [claim, replaceCopy_eq_ok_iff, replace_eq_ok_iff]
  simp

/-- A machine that may be claimed by its id is neither held nor claimed. -/
theorem readUnclaimed_eq_ok_iff :
    s.readUnclaimed id = .ok copy ↔
      s.machine? id = some copy ∧ copy.isFree = true ∧ copy.preallocated = false := by
  unfold readUnclaimed
  cases found : s.machine? id with
  | none => simp
  | some m =>
      by_cases taken : (!m.isFree || m.preallocated) = true
      · simp only [taken, if_true, reduceCtorEq, Option.some.injEq, false_iff]
        rintro ⟨rfl, free, unclaimed⟩
        simp [free, unclaimed] at taken
      · simp only [Bool.not_eq_true, Bool.or_eq_false_iff, Bool.not_eq_false'] at taken
        simp only [taken, Bool.not_true, Bool.or_self, Bool.false_eq_true, if_false,
          Except.ok.injEq, Option.some.injEq]
        exact ⟨fun h => ⟨h, h ▸ taken⟩, fun h => h.1⟩

/-- A claim by id is the claim of a record that was just read. -/
theorem claimMachine_eq_ok_iff :
    s.claimMachine id = .ok (written, s') ↔
      ∃ copy, s.readUnclaimed id = .ok copy ∧ s.claim copy = .ok (written, s') := by
  unfold claimMachine
  cases s.readUnclaimed id <;> simp [bind, Except.bind]

/-- A machine that is selected and claimed is claimed by a copy that was just read. -/
theorem exists_claim_of_selectAndClaim {project partition size : String} {tags : List String}
    {words : Placement.RandomWords}
    (h : s.selectAndClaim project partition size tags words = .ok (written, s')) :
    ∃ copy words', s.select project partition size tags words = .ok (copy, words') ∧
      s.claim copy = .ok (written, s') := by
  unfold selectAndClaim at h
  cases selected : s.select project partition size tags words with
  | error e => simp [selected, bind, Except.bind] at h
  | ok chosen => exact ⟨chosen.1, chosen.2, rfl, by simpa [selected, bind, Except.bind] using h⟩

/-- Whatever a request gets, a copy of it was claimed. -/
theorem exists_claim_of_claimFor {r : Request} {partition : String}
    {words : Placement.RandomWords} (h : s.claimFor r partition words = .ok (written, s')) :
    ∃ copy, s.claim copy = .ok (written, s') := by
  unfold claimFor at h
  split at h
  · obtain ⟨copy, -, claimed⟩ := claimMachine_eq_ok_iff.mp h
    exact ⟨copy, claimed⟩
  · obtain ⟨copy, -, -, claimed⟩ := exists_claim_of_selectAndClaim h
    exact ⟨copy, claimed⟩

theorem wrote_of_claim (h : s.claim copy = .ok (written, s')) : Wrote s written s' :=
  wrote_of_replaceCopy h

theorem wrote_of_claimMachine (h : s.claimMachine id = .ok (written, s')) :
    Wrote s written s' := by
  obtain ⟨copy, -, claimed⟩ := claimMachine_eq_ok_iff.mp h
  exact wrote_of_claim claimed

theorem wrote_of_selectAndClaim {project partition size : String} {tags : List String}
    {words : Placement.RandomWords}
    (h : s.selectAndClaim project partition size tags words = .ok (written, s')) :
    Wrote s written s' := by
  obtain ⟨copy, -, -, claimed⟩ := exists_claim_of_selectAndClaim h
  exact wrote_of_claim claimed

theorem wrote_of_claimFor {r : Request} {partition : String} {words : Placement.RandomWords}
    (h : s.claimFor r partition words = .ok (written, s')) : Wrote s written s' := by
  obtain ⟨copy, claimed⟩ := exists_claim_of_claimFor h
  exact wrote_of_claim claimed

/-! ### Attaching an allocation -/

/-- An allocation is attached exactly to a current copy that is claimed and free. -/
theorem attachAllocation_eq_ok_iff {a : Allocation} {tags : List String} :
    s.attachAllocation copy a tags = .ok (written, s') ↔
      copy.preallocated = true ∧ copy.isFree = true ∧ s.IsCurrent copy ∧
        written = { allocated copy a tags with changed := copy.changed + 1 } ∧
        s' = s.putMachine written := by
  by_cases unfit : (!copy.preallocated || copy.allocation.isSome) = true
  · simp only [attachAllocation, unfit, if_true, reduceCtorEq, false_iff]
    rintro ⟨claimed, free, -⟩
    simp only [Machine.isFree, Option.isNone_iff_eq_none] at free
    simp [claimed, free] at unfit
  · have fit : copy.preallocated = true ∧ copy.isFree = true := by
      simpa [Machine.isFree] using unfit
    rw [attachAllocation, if_neg unfit, replaceCopy_eq_ok_iff, replace_eq_ok_iff]
    simp [fit, allocated]

theorem wrote_of_attachAllocation {a : Allocation} {tags : List String}
    (h : s.attachAllocation copy a tags = .ok (written, s')) : Wrote s written s' := by
  unfold attachAllocation at h
  split at h
  · cases h
  · exact wrote_of_replaceCopy h

/-! ### Releasing -/

/-- A machine can be released exactly if it is claimed or held. -/
theorem release_eq_ok_iff :
    s.release id = .ok (written, s') ↔
      ∃ m, s.machine? id = some m ∧ m.isTaken = true ∧
        s.replace m (released m) = .ok (written, s') := by
  unfold release
  cases found : s.machine? id with
  | none => simp
  | some m =>
      by_cases idle : (!m.preallocated && m.isFree) = true
      · simp only [idle, if_true, reduceCtorEq, false_iff]
        rintro ⟨_, ⟨⟩, taken, -⟩
        cases claimed : m.preallocated <;> cases free : m.isFree <;>
          simp_all [Machine.isTaken]
      · have taken : m.isTaken = true := by
          cases claimed : m.preallocated <;> cases free : m.isFree <;>
            simp_all [Machine.isTaken]
        simp [idle, taken, replaceCopy_eq_ok_iff]

theorem wrote_of_release (h : s.release id = .ok (written, s')) : Wrote s written s' := by
  obtain ⟨m, -, -, replaced⟩ := release_eq_ok_iff.mp h
  exact wrote_of_replace replaced

end Store

end MachinePool
