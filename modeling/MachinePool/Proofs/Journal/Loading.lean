import MachinePool.Inventory
import MachinePool.Proofs.Journal.Operation

/-!
Loading an inventory is a run of calls.

Networks and leases are put, machines are registered up to the first one that is
held, and health is reported if there is none (`Inventory.calls`). `load_store`
ties this run to the loading itself, so what holds of every run holds of an
operator's import, whoever else calls in between.
-/

namespace MachinePool

/-- The calls that loading an inventory by a clock consists of. The first machine that cannot be
registered ends it. -/
def Inventory.calls (i : Inventory) (clock : String → UInt64) : List Operation :=
  i.networks.map .putNetwork ++ i.leases.map .putLease ++
    (i.machines.takeWhile (·.isFree)).map .register ++
    if i.machines.all (·.isFree) then
      i.liveliness.entries.map fun r => .putHeartbeat ⟨r.1, r.2, clock r.1⟩
    else []

/-- A row of calls that each do one thing to the store does them one after another. -/
theorem store_performAll_map {α : Type} (call : α → Operation) (put : Store → α → Store)
    (each : ∀ s x, ((call x).effect s).2 = put s x) (h : History) (xs : List α) :
    (h.performAll (xs.map call)).store = xs.foldl put h.store := by
  induction xs generalizing h with
  | nil => rfl
  | cons x xs ih =>
      change ((h.perform (call x)).performAll (xs.map call)).store = _
      rw [ih, List.foldl_cons, ← each]
      rfl

/-- A registration of a machine that is held fails. -/
theorem exists_register_error {m : Machine} (held : m.isFree = false) (s : Store) :
    ∃ e, s.register m = .error e := by
  cases registered : s.register m with
  | error e => exact ⟨e, rfl⟩
  | ok written =>
      have free : m.isFree = true := (Store.register_eq_ok_iff.mp registered).1
      rw [held] at free
      cases free

/-- Machines are registered up to the first one that is held. -/
theorem registerAll_eq (h : History) (machines : List Machine) :
    ∃ failure, h.store.registerAll machines =
        (failure, (h.performAll ((machines.takeWhile (·.isFree)).map .register)).store) ∧
      (failure = none ↔ machines.all (·.isFree) = true) := by
  induction machines generalizing h with
  | nil => exact ⟨none, rfl, by simp⟩
  | cons m machines ih =>
      cases free : m.isFree with
      | false =>
          obtain ⟨e, failed⟩ := exists_register_error free h.store
          exact ⟨some ⟨m.id, e⟩, by simp [Store.registerAll, failed, free, History.performAll],
            by simp [free]⟩
      | true =>
          obtain ⟨written, registered⟩ : ∃ written, h.store.register m = .ok written :=
            ⟨_, Store.register_eq_ok_iff.mpr ⟨free, rfl, rfl⟩⟩
          have first : (h.perform (.register m)).store = written.2 := by
            simp [History.perform, Operation.effect, registered, settle]
          obtain ⟨failure, rest, complete⟩ := ih (h.perform (.register m))
          rw [first] at rest
          refine ⟨failure, ?_, by simpa [free] using complete⟩
          simp only [Store.registerAll, registered, rest, List.takeWhile_cons, free, if_true,
            List.map_cons]
          rfl

/-- Loading an inventory leaves the store that its calls leave. -/
theorem load_store (h : History) (clock : String → UInt64) (i : Inventory) :
    (h.store.load clock i).2 = (h.performAll (i.calls clock)).store := by
  have networks := store_performAll_map .putNetwork Store.putNetwork (fun _ _ => rfl) h i.networks
  have leases := store_performAll_map .putLease Store.putLease (fun _ _ => rfl)
    (h.performAll (i.networks.map .putNetwork)) i.leases
  obtain ⟨failure, registered, complete⟩ := registerAll_eq
    ((h.performAll (i.networks.map .putNetwork)).performAll (i.leases.map .putLease)) i.machines
  rw [networks] at leases
  simp only [Store.load, Inventory.calls, History.performAll_append, ← leases, registered]
  cases failure with
  | some failure =>
      rw [if_neg fun all => nomatch complete.mpr all]
      rfl
  | none =>
      rw [if_pos (complete.mp rfl)]
      exact (store_performAll_map (fun r : String × Liveliness => .putHeartbeat ⟨r.1, r.2, clock r.1⟩)
        (fun s r => s.reportLiveliness (clock r.1) r.1 r.2) (fun _ _ => rfl) _ _).symm

end MachinePool
