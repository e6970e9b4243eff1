import MachinePool.Proofs.Journal.Marker

/-!
What becomes of outdated copies.

* `no_update_lost`: without deletions, the markers of a machine's writes are
  1, 2, 3, … and an update based on one of them succeeds only while it is the
  last one; so of several updates based on one copy at most one succeeds.
* `copy_of_deleted_rejected_iff`: a copy read before its machine was deleted is
  rejected exactly as long as the number of writes since the machine was
  registered again differs from what it was when the copy was read.
-/

namespace MachinePool

variable {ops : List Operation} {id : String}

/-- Writes whose markers are their numbers modulo the size of a marker are numbered by them as long
as there are few. -/
theorem map_changed_eq_range {writes : List Machine} (few : writes.length < 2 ^ 64)
    (marker : ∀ i m, writes[i]? = some m → m.changed = UInt64.ofNat (i + 1)) :
    writes.map (·.changed.toNat) = List.range' 1 writes.length := by
  refine List.ext_getElem (by simp) fun i mapped _ => ?_
  have bound : i < writes.length := by simpa using mapped
  have numbered : writes[i].changed = UInt64.ofNat (i + 1) :=
    marker i _ (List.getElem?_eq_getElem bound)
  have counted : i + 1 < 2 ^ 64 := by omega
  rw [List.getElem_map, numbered, UInt64.toNat_ofNat', Nat.mod_eq_of_lt counted,
    List.getElem_range']
  omega

/-! ### Without deletions -/

section Kept

variable (kept : ∀ op ∈ ops, op.isDelete = false)

include kept

/-- The stored record of a machine is the last one that was written. -/
theorem stored_eq_last_write :
    (history ops).store.machine? id = (writesOf id (history ops).journal).getLast? := by
  rw [(accounts_history ops).stored, incarnation_history_eq kept]

/-- The writes of a machine carry the markers one, two, three and so on. -/
theorem changed_of_write {j : Nat} {m : Machine}
    (write : (writesOf id (history ops).journal)[j]? = some m) :
    m.changed = UInt64.ofNat (j + 1) := by
  rw [← incarnation_history_eq kept] at write
  exact (accounts_history ops).marker id j m write

theorem id_of_write {m : Machine} (write : m ∈ writesOf id (history ops).journal) : m.id = id := by
  rw [← incarnation_history_eq kept] at write
  exact id_of_mem_incarnation write

/-- The last write is current. -/
theorem replace_last_write {old new : Machine}
    (last : (writesOf id (history ops).journal).getLast? = some old) (same : new.id = id) :
    ∃ after, (history ops).store.replace old new =
      .ok ({ new with changed := old.changed + 1 }, after) := by
  have oldId : old.id = id := id_of_write kept (List.mem_of_getLast? last)
  have current : (history ops).store.IsCurrent old :=
    ⟨old, by rw [oldId, stored_eq_last_write kept, last], rfl⟩
  exact ⟨_, Store.replace_of_current (oldId.trans same.symm) current⟩

/-- An earlier write conflicts with the last one. -/
theorem replace_earlier_write {j : Nat} {old new : Machine}
    (few : (writesOf id (history ops).journal).length < 2 ^ 64)
    (write : (writesOf id (history ops).journal)[j]? = some old) (same : new.id = id)
    (earlier : j + 1 ≠ (writesOf id (history ops).journal).length) :
    ∃ last, (writesOf id (history ops).journal).getLast? = some last ∧
      (history ops).store.replace old new = .error (.conflict id old.changed last.changed) := by
  have bound : j < (writesOf id (history ops).journal).length :=
    (List.getElem?_eq_some_iff.mp write).1
  have oldId : old.id = id := id_of_write kept (List.mem_of_getElem? write)
  obtain ⟨last, isLast⟩ : ∃ last, (writesOf id (history ops).journal).getLast? = some last :=
    Option.ne_none_iff_exists'.mp fun empty => by
      rw [List.getLast?_eq_none_iff.mp empty] at bound
      exact Nat.not_lt_zero _ bound
  have found : (history ops).store.machine? old.id = some last := by
    rw [oldId, stored_eq_last_write kept, isLast]
  have outdated : last.changed ≠ old.changed := by
    rw [List.getLast?_eq_getElem?] at isLast
    rw [changed_of_write kept isLast, changed_of_write kept write]
    exact (ofNat_ne_ofNat (by omega) (by omega)).symm
  exact ⟨last, isLast, oldId ▸ Store.replace_of_outdated (oldId.trans same.symm) found outdated⟩

end Kept

/-- After an update based on a copy, no update based on it succeeds. -/
theorem not_isCurrent_after_replace {before after : List Operation} {old new : Machine}
    (kept : ∀ op ∈ before ++ .replace old new :: after, op.isDelete = false)
    (few : (writesOf old.id
      (history (before ++ .replace old new :: after)).journal).length < 2 ^ 64)
    {written : Machine × Store}
    (first : (history before).store.replace old new = .ok written) :
    ¬ (history (before ++ .replace old new :: after)).store.IsCurrent old := by
  have keptBefore : ∀ op ∈ before, op.isDelete = false := fun op mem =>
    kept op (List.mem_append_left _ mem)
  obtain ⟨same, current, rewritten, -⟩ := Store.replace_eq_ok_iff.mp first
  -- The copy's marker counts the writes before the update, and the update is one more.
  have counted := ((isCurrent_history_iff keptBefore).mp current).2
  have grown : (writesOf old.id (history before).journal).length <
      (writesOf old.id (history (before ++ .replace old new :: after)).journal).length := by
    have whole : history (before ++ .replace old new :: after) =
        (History.perform (history before) (.replace old new)).performAll after :=
      History.performAll_append _ before _
    rw [whole, History.performAll_eq]
    simp [History.perform, Operation.effect, first, settle, writesOf, rewritten, same]
  intro stillCurrent
  have recounted := ((isCurrent_history_iff kept).mp stillCurrent).2
  exact ofNat_ne_ofNat grown few (counted.symm.trans recounted)

/-- Without deletions, the writes of a machine are numbered by their markers from one on, the
stored record is the last of them, and a copy of a write is replaced while that write is the last
one and conflicts with the last one afterwards. Of several updates based on one copy at most one
succeeds. -/
theorem no_update_lost (ops : List Operation) (kept : ∀ op ∈ ops, op.isDelete = false)
    (few : (history ops).journal.length < 2 ^ 64 - 1) (id : String) :
    let s := (history ops).store
    let writes := writesOf id (history ops).journal
    writes.map (·.changed.toNat) = List.range' 1 writes.length ∧
    s.machine? id = writes.getLast? ∧
    (∀ j old new, writes[j]? = some old → new.id = id →
      if j + 1 = writes.length then
        ∃ after, s.replace old new = .ok ({ new with changed := old.changed + 1 }, after)
      else
        ∃ last, s.machine? id = some last ∧
          s.replace old new = .error (.conflict id old.changed last.changed)) ∧
    (∀ before after old new written, ops = before ++ .replace old new :: after →
      (history before).store.replace old new = .ok written →
      ∀ new' written', s.replace old new' ≠ .ok written') := by
  intro s writes
  have fewWrites : ∀ id, (writesOf id (history ops).journal).length < 2 ^ 64 := fun id =>
    Nat.lt_of_le_of_lt (length_writesOf_le id _) (by omega)
  refine ⟨map_changed_eq_range (fewWrites id) fun i m => changed_of_write kept,
    stored_eq_last_write kept, fun j old new write same => ?_, ?_⟩
  · by_cases last : j + 1 = writes.length
    · rw [if_pos last]
      refine replace_last_write kept ?_ same
      rw [List.getLast?_eq_getElem?, show writes.length - 1 = j by omega, write]
    · rw [if_neg last]
      obtain ⟨stored, isLast, conflict⟩ :=
        replace_earlier_write kept (fewWrites id) write same last
      exact ⟨stored, (stored_eq_last_write kept).trans isLast, conflict⟩
  · rintro before after old new written rfl first new' written' second
    exact not_isCurrent_after_replace kept (fewWrites old.id) first
      (Store.replace_eq_ok_iff.mp second).2.1

/-- A copy of the first of three writes conflicts with the third. -/
theorem first_write_conflicts_with_third :
    let idle := Machine.idle "m"
    let ops : List Operation := [.register idle, .claimMachine "m", .release "m"]
    (∀ op ∈ ops, op.isDelete = false) ∧ (history ops).journal.length < 2 ^ 64 - 1 ∧
    (writesOf "m" (history ops).journal).map (·.changed.toNat) = [1, 2, 3] ∧
    (history ops).store.replace { idle with changed := 1 } idle = .error (.conflict "m" 1 3) := by
  intro idle ops
  have kept : ∀ op ∈ ops, op.isDelete = false := by decide
  have few : (history ops).journal.length < 2 ^ 64 - 1 := by decide
  obtain ⟨markers, stored, updates, -⟩ := no_update_lost ops kept few "m"
  obtain ⟨last, isStored, conflict⟩ := updates 0 { idle with changed := 1 } idle (by decide) rfl
  have isThird : last.changed = 3 := by
    have third : (history ops).store.machine? "m" =
        some { idle with waiting := false, changed := 3 } := by
      decide
    rw [third] at isStored
    cases isStored
    rfl
  exact ⟨kept, few, markers.trans (by decide), by rw [conflict, isThird]⟩

/-! ### Across deletions -/

/-- An operation that fails and changes nothing. -/
def Operation.RejectedBy (op : Operation) (s : Store) : Prop := op.effect s = ([], s)

instance (op : Operation) (s : Store) : Decidable (op.RejectedBy s) := by
  unfold Operation.RejectedBy; infer_instance

section Rejection

variable {s : Store} {copy new : Machine}

theorem settle_eq_nothing_iff {ε : Type} {cause : Cause} {result : Except ε (Machine × Store)} :
    settle cause s result = ([], s) ↔ ∀ written, result ≠ .ok written := by
  cases result <;> simp [settle]

/-- An update of a copy is rejected exactly if the copy is outdated. -/
theorem rejectedBy_replace_iff (same : new.id = copy.id) :
    (Operation.replace copy new).RejectedBy s ↔ ¬ s.IsCurrent copy := by
  refine settle_eq_nothing_iff.trans ⟨fun failed current => ?_, fun outdated written ok => ?_⟩
  · exact failed _ (Store.replace_of_current same.symm current)
  · exact outdated (Store.replace_eq_ok_iff.mp ok).2.1

/-- A claim is rejected exactly if its copy is outdated. -/
theorem rejectedBy_claim_iff :
    (Operation.claim copy).RejectedBy s ↔ ¬ s.IsCurrent copy := by
  refine settle_eq_nothing_iff.trans ⟨fun failed current => ?_, fun outdated written ok => ?_⟩
  · exact failed _ (Store.claim_eq_ok_iff.mpr ⟨current, rfl, rfl⟩)
  · exact outdated (Store.claim_eq_ok_iff.mp ok).1

/-- A finalization is rejected exactly if its copy is outdated, not claimed, or held already. -/
theorem rejectedBy_attach_iff {a : Allocation} {tags : List String} :
    (Operation.attach copy a tags).RejectedBy s ↔
      ¬ s.IsCurrent copy ∨ copy.preallocated = false ∨ copy.isFree = false := by
  refine settle_eq_nothing_iff.trans ⟨fun failed => ?_, fun unfit written ok => ?_⟩
  · by_contra fit
    simp only [not_or, not_not, Bool.not_eq_false] at fit
    exact failed _ (Store.attachAllocation_eq_ok_iff.mpr ⟨fit.2.1, fit.2.2, fit.1, rfl, rfl⟩)
  · obtain ⟨claimed, free, current, -⟩ := Store.attachAllocation_eq_ok_iff.mp ok
    simp [current, claimed, free] at unfit

end Rejection

def writesSinceDeletion (id : String) (ops : List Operation) : Nat :=
  (incarnation id (history ops).journal).length

/-- A copy that was read once is current exactly when its machine is stored and has been written as
often since the last deletion as when the copy was read, modulo the size of a marker. -/
theorem isCurrent_read_copy_iff {before ops : List Operation} {copy : Machine}
    (read : (history before).store.machine? id = some copy) :
    (history ops).store.IsCurrent copy ↔ writesSinceDeletion id ops ≠ 0 ∧
      writesSinceDeletion id before ≡ writesSinceDeletion id ops [MOD 2 ^ 64] := by
  have copyId : copy.id = id := (accounts_history before).id_of_stored read
  rw [(accounts_history ops).isCurrent_iff, copyId,
    (accounts_history before).changed_of_stored read, ofNat_eq_ofNat_iff, Ne,
    ← List.length_eq_zero_iff]
  rfl

/-- A copy read after the machine was last deleted is the stored record if it is current, as long as
the marker has not gone around. -/
theorem stored_of_current_copy {read later : List Operation} {copy : Machine}
    (found : (history read).store.machine? id = some copy) (kept : .delete id ∉ later)
    (few : writesSinceDeletion id (read ++ later) < 2 ^ 64)
    (current : (history (read ++ later)).store.IsCurrent copy) :
    (history (read ++ later)).store.machine? id = some copy := by
  have whole : history (read ++ later) = (history read).performAll later :=
    History.performAll_append _ read later
  have copyId : copy.id = id := (accounts_history read).id_of_stored found
  have written : copy ∈ incarnation id (history (read ++ later)).journal := by
    rw [whole, History.performAll_eq, incarnation_append _ (deleted_notMem_of_notMem kept)]
    rw [(accounts_history read).stored] at found
    exact List.mem_append_left _ (List.mem_of_getLast? found)
  subst copyId
  obtain ⟨m, stored, marker⟩ := current
  have same := (accounts_history _).eq_stored_of_current few written ⟨m, stored, marker⟩ stored
  rw [stored, same]

/-- A copy read before its machine was deleted is rejected by an update, a claim and a finalization
exactly when the machine is not stored or has been written another number of times since than it
had been when the copy was read; a finalization rejects copies that are not claimed and free
besides. -/
theorem copy_of_deleted_rejected_iff (before between after : List Operation) (id : String)
    (copy : Machine) (read : (history before).store.machine? id = some copy) :
    let run := before ++ between ++ .delete id :: after
    let s := (history run).store
    let differs := writesSinceDeletion id run = 0 ∨
      ¬ writesSinceDeletion id before ≡ writesSinceDeletion id run [MOD 2 ^ 64]
    (∀ new, new.id = id → ((Operation.replace copy new).RejectedBy s ↔ differs)) ∧
    ((Operation.claim copy).RejectedBy s ↔ differs) ∧
    (∀ a tags, (Operation.attach copy a tags).RejectedBy s ↔
      differs ∨ copy.preallocated = false ∨ copy.isFree = false) := by
  intro run s differs
  have copyId : copy.id = id := (accounts_history before).id_of_stored read
  have outdated : ¬ s.IsCurrent copy ↔ differs := by
    rw [isCurrent_read_copy_iff read, not_and_or, not_not]
  refine ⟨fun new same => ?_, ?_, fun a tags => ?_⟩
  · rw [rejectedBy_replace_iff (same.trans copyId.symm), outdated]
  · rw [rejectedBy_claim_iff, outdated]
  · rw [rejectedBy_attach_iff, outdated]

/-- The copy of a deleted machine is accepted after one new registration and rejected after two. -/
theorem copy_of_deleted_meets_first_registration :
    let idle := Machine.idle "m"
    let copy := { idle with changed := 1 }
    let before := [Operation.register idle]
    let once := [Operation.register idle]
    let twice := [Operation.register idle, .register idle]
    (history before).store.machine? "m" = some copy ∧
    ¬ (Operation.claim copy).RejectedBy (history (before ++ [] ++ .delete "m" :: once)).store ∧
    (Operation.claim copy).RejectedBy (history (before ++ [] ++ .delete "m" :: twice)).store := by
  intro idle copy before once twice
  have read : (history before).store.machine? "m" = some copy := by decide
  obtain ⟨-, first, -⟩ := copy_of_deleted_rejected_iff before [] once "m" copy read
  obtain ⟨-, second, -⟩ := copy_of_deleted_rejected_iff before [] twice "m" copy read
  exact ⟨read, fun rejected => absurd (first.mp rejected) (by decide), second.mpr (by decide)⟩

/-- Not every copy of a deleted machine is rejected: a claim made before the deletion is finalized
over the claim another caller made after the machine was registered again. -/
theorem copy_of_deleted_finalized :
    let idle := Machine.idle "m"
    let before : List Operation := [.register idle, .claimMachine "m"]
    let copy := { idle with preallocated := true, changed := 2 }
    (history before).store.machine? "m" = some copy ∧
    ¬ (Operation.attach copy ⟨"a", "c", "x", .machine, [], [], 0⟩ []).RejectedBy
      (history (before ++ .delete "m" :: before)).store := by
  decide

end MachinePool
