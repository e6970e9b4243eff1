import MachinePool.Store.Basic

/-!
What a write leaves in the store.

A registration and a replacement put one record under its id and leave every
other record alone (`Wrote`). A registration succeeds for every free record
(`register_eq_ok_iff`), a replacement exactly when its copy is current
(`replace_eq_ok_iff`).
-/

namespace MachinePool.Store

variable {s s' : Store} {m old new written : Machine} {id : String}

/-! ### Looking up after a write -/

theorem machine?_putMachine (s : Store) (m : Machine) (id : String) :
    (s.putMachine m).machine? id = if id = m.id then some m else s.machine? id :=
  Table.get?_insert _ _ _ _

@[simp] theorem machine?_putMachine_self (s : Store) (m : Machine) :
    (s.putMachine m).machine? m.id = some m := by simp [machine?_putMachine]

theorem machine?_deleteMachine (s : Store) (deleted id : String) :
    (s.deleteMachine deleted).2.machine? id = if id = deleted then none else s.machine? id :=
  Table.get?_erase _ _ _

/-! ### Searching -/

theorem mem_listMachines : m ∈ s.listMachines ↔ ∃ id, s.machine? id = some m :=
  Table.mem_values_iff _

theorem mem_search {q : Query} :
    m ∈ s.search q ↔ (∃ id, s.machine? id = some m) ∧ q.matches? m = true := by
  rw [search, List.mem_filter, mem_listMachines]

/-! ### Writing a machine -/

/-- The stored record of a copy's machine still carries the copy's marker. -/
def IsCurrent (s : Store) (copy : Machine) : Prop :=
  ∃ stored, s.machine? copy.id = some stored ∧ stored.changed = copy.changed

/-- `after` is `before` with a record written whose marker is one beyond the stored one. -/
structure Wrote (before : Store) (m : Machine) (after : Store) : Prop where
  marker : m.changed = nextMarker (before.machine? m.id)
  store : after = before.putMachine m

theorem IsCurrent.nextMarker_eq (current : s.IsCurrent old) :
    nextMarker (s.machine? old.id) = old.changed + 1 := by
  obtain ⟨stored, found, marker⟩ := current
  simp [found, nextMarker, marker]

/-- A registration succeeds for a free record, whatever was stored before. -/
theorem register_eq_ok_iff :
    s.register m = .ok (written, s') ↔
      m.isFree = true ∧ written = { m with changed := nextMarker (s.machine? m.id) } ∧
        s' = s.putMachine written := by
  cases held : m.allocation with
  | some a => simp [register, Machine.isFree, held]
  | none =>
      simp only [register, Machine.isFree, held, Option.isSome_none, Option.isNone_none,
        Bool.false_eq_true, if_false, Except.ok.injEq, Prod.mk.injEq, true_and]
      constructor
      · rintro ⟨rfl, rfl⟩
        exact ⟨rfl, rfl⟩
      · rintro ⟨rfl, rfl⟩
        exact ⟨rfl, rfl⟩

/-- A registration is a write. -/
theorem wrote_of_register (h : s.register m = .ok (written, s')) : Wrote s written s' := by
  obtain ⟨-, rfl, rfl⟩ := register_eq_ok_iff.mp h
  exact ⟨rfl, rfl⟩

/-- Registering a free machine over and over moves its marker on by one each time. What registering
it keeps is kept. -/
theorem exists_registered {kept : Store → Prop} (free : m.isFree = true)
    (registers : ∀ s written after, kept s → s.register m = .ok (written, after) → kept after)
    (start : kept s) (stored : s.machine? m.id = some m) (n : Nat) :
    ∃ after, kept after ∧
      after.machine? m.id = some { m with changed := m.changed + UInt64.ofNat n } := by
  induction n with
  | zero => exact ⟨s, start, by simpa using stored⟩
  | succ n ih =>
      obtain ⟨between, keeps, found⟩ := ih
      let written := { m with changed := m.changed + UInt64.ofNat (n + 1) }
      have registered : between.register m = .ok (written, between.putMachine written) := by
        rw [register_eq_ok_iff, found]
        refine ⟨free, ?_, rfl⟩
        simp [written, nextMarker, UInt64.ofNat_add, UInt64.add_assoc]
      exact ⟨_, registers _ _ _ keeps registered, machine?_putMachine_self between written⟩

/-! What a replacement does is decided by the stored record alone. -/

theorem replace_of_absent (same : old.id = new.id) (absent : s.machine? old.id = none) :
    s.replace old new = .error (.notFound ("machine " ++ old.id)) := by
  simp only [replace, ne_eq, same, not_true_eq_false, if_false]
  rw [← same, absent]

/-- An outdated copy is told the marker it carries and the stored one. -/
theorem replace_of_outdated {stored : Machine} (same : old.id = new.id)
    (found : s.machine? old.id = some stored) (outdated : stored.changed ≠ old.changed) :
    s.replace old new = .error (.conflict old.id old.changed stored.changed) := by
  simp only [replace, ne_eq, same, not_true_eq_false, if_false]
  rw [← same, found]
  simp [outdated]

/-- A current copy is replaced, with the next marker. -/
theorem replace_of_current (same : old.id = new.id) (current : s.IsCurrent old) :
    s.replace old new = .ok ({ new with changed := old.changed + 1 },
      s.putMachine { new with changed := old.changed + 1 }) := by
  obtain ⟨stored, found, marker⟩ := current
  simp only [replace, ne_eq, same, not_true_eq_false, if_false]
  rw [← same, found]
  simp [marker]

/-- A replacement succeeds exactly when the copy is current. -/
theorem replace_eq_ok_iff :
    s.replace old new = .ok (written, s') ↔
      old.id = new.id ∧ s.IsCurrent old ∧ written = { new with changed := old.changed + 1 } ∧
        s' = s.putMachine written := by
  constructor
  · intro h
    by_cases same : old.id = new.id
    · cases found : s.machine? old.id with
      | none => simp [replace_of_absent same found] at h
      | some stored =>
          by_cases marker : stored.changed = old.changed
          · have current : s.IsCurrent old := ⟨stored, found, marker⟩
            rw [replace_of_current same current] at h
            cases h
            exact ⟨same, current, rfl, rfl⟩
          · simp [replace_of_outdated same found marker] at h
    · simp [replace, same] at h
  · rintro ⟨same, current, rfl, rfl⟩
    exact replace_of_current same current

/-- A replacement is a write. -/
theorem wrote_of_replace (h : s.replace old new = .ok (written, s')) : Wrote s written s' := by
  obtain ⟨same, current, rfl, rfl⟩ := replace_eq_ok_iff.mp h
  refine ⟨?_, rfl⟩
  rw [← same, current.nextMarker_eq]

end MachinePool.Store
