import MachinePool.Proofs.Address
import MachinePool.Proofs.Journal.Marker
import MachinePool.Proofs.Table

/-!
Stores that calls lead to.

Every call writes a machine under the id of its record, so in a store that was
reached by calls a record is found under its own id and a record that was just
read is current. Networks and leases are kept under their own keys as well
(`Keyed`), and addresses with one text are one address, so the lease found for
an address is a lease of that address (`Reachable.lease_address`).
-/

namespace MachinePool.Store

variable {s after : Store} {m : Machine} {id : String}

/-- Some calls lead from the store without records to this one. -/
def Reachable (s : Store) : Prop := ∃ ops, (history ops).store = s

theorem reachable_history (ops : List Operation) : (history ops).store.Reachable := ⟨ops, rfl⟩

/-! ### Networks and leases -/

/-- Networks and leases are stored under their own keys. -/
structure Keyed (s : Store) : Prop where
  network : ∀ id n, s.network? id = some n → n.id = id
  lease : ∀ key l, s.leases.get? key = some l → l.key = key

def SameNetworks (s after : Store) : Prop :=
  after.networks = s.networks ∧ after.leases = s.leases

theorem SameNetworks.trans {next : Store} (first : s.SameNetworks next)
    (second : next.SameNetworks after) : s.SameNetworks after :=
  ⟨second.1.trans first.1, second.2.trans first.2⟩

/-- A write of a machine leaves networks and leases alone. -/
theorem Wrote.sameNetworks (write : s.Wrote m after) : s.SameNetworks after := by
  rw [write.store]
  exact ⟨rfl, rfl⟩

theorem sameNetworks_settle {ε : Type} {result : Except ε (Machine × Store)} (cause : Cause)
    (write : ∀ m after, result = .ok (m, after) → s.Wrote m after) :
    s.SameNetworks (settle cause s result).2 := by
  cases result with
  | error e => exact ⟨rfl, rfl⟩
  | ok written => exact (write written.1 written.2 rfl).sameNetworks

/-- An allocation leaves networks and leases alone. -/
theorem sameNetworks_allocateEffect (s : Store) (now : UInt64) (r : Request)
    (words : Placement.RandomWords) : s.SameNetworks (allocateEffect s now r words).2 := by
  unfold allocateEffect
  cases s.prepare r with
  | error e => exact ⟨rfl, rfl⟩
  | ok prepared =>
      obtain ⟨partition, plan⟩ := prepared
      cases claim : s.claimFor r partition words with
      | error e =>
          simp only [claim]
          exact ⟨rfl, rfl⟩
      | ok claimResult =>
          obtain ⟨claimed, claimedStore⟩ := claimResult
          have claims : s.SameNetworks claimedStore := (wrote_of_claimFor claim).sameNetworks
          cases final : claimedStore.finalize now claimed r plan with
          | ok written =>
              simp only [claim, final]
              exact claims.trans (wrote_of_attachAllocation final).sameNetworks
          | error e =>
              simp only [claim, final]
              exact claims.trans (sameNetworks_settle _ fun _ _ => wrote_of_release)

namespace Keyed

theorem empty : Keyed .empty where
  network id n found := by cases found
  lease key l found := by cases found

theorem congr (h : s.Keyed) (same : s.SameNetworks after) : after.Keyed where
  network id n found := h.network id n (by rwa [network?, same.1] at found)
  lease key l found := h.lease key l (by rwa [same.2] at found)

theorem putNetwork (h : s.Keyed) (n : Network) : (s.putNetwork n).Keyed where
  network id n' found := by
    rw [network?, Store.putNetwork, Table.get?_insert] at found
    split at found
    · next same =>
        cases found
        exact same.symm
    · exact h.network id n' found
  lease := h.lease

theorem putLease (h : s.Keyed) (l : Lease) : (s.putLease l).Keyed where
  network := h.network
  lease key l' found := by
    rw [Store.putLease, Table.get?_insert] at found
    split at found
    · next same =>
        cases found
        exact same.symm
    · exact h.lease key l' found

/-- No call puts a network or a lease under the key of another one. -/
theorem effect (h : s.Keyed) (op : Operation) : (op.effect s).2.Keyed := by
  cases op with
  | register m => exact h.congr (sameNetworks_settle _ fun _ _ => wrote_of_register)
  | replace old new => exact h.congr (sameNetworks_settle _ fun _ _ => wrote_of_replace)
  | claim copy => exact h.congr (sameNetworks_settle _ fun _ _ => wrote_of_claim)
  | claimMachine id => exact h.congr (sameNetworks_settle _ fun _ _ => wrote_of_claimMachine)
  | selectAndClaim => exact h.congr (sameNetworks_settle _ fun _ _ => wrote_of_selectAndClaim)
  | attach copy a tags =>
      exact h.congr (sameNetworks_settle _ fun _ _ => wrote_of_attachAllocation)
  | release id => exact h.congr (sameNetworks_settle _ fun _ _ => wrote_of_release)
  | allocate now r words => exact h.congr (sameNetworks_allocateEffect s now r words)
  | delete id => exact h.congr ⟨rfl, rfl⟩
  | putNetwork n => exact h.putNetwork n
  | putLease l => exact h.putLease l
  | putHeartbeat b => exact h.congr ⟨rfl, rfl⟩

theorem history (ops : List Operation) : (history ops).store.Keyed := by
  induction ops using List.reverseRecOn with
  | nil => exact empty
  | append_singleton ops op ih =>
      rw [MachinePool.history, History.performAll_append]
      exact ih.effect op

end Keyed

/-! ### Reachable stores -/

namespace Reachable

/-- A call leads from a reachable store to a reachable store. -/
theorem effect (reached : s.Reachable) (op : Operation) : (op.effect s).2.Reachable := by
  obtain ⟨ops, rfl⟩ := reached
  refine ⟨ops ++ [op], ?_⟩
  rw [history, History.performAll_append]
  rfl

/-- An allocation, successful or not, leads to a reachable store. -/
theorem allocate (reached : s.Reachable) (now : UInt64) (r : Request)
    (words : Placement.RandomWords) : (s.allocate now r words).2.Reachable := by
  rw [← allocateEffect_store]
  exact reached.effect (.allocate now r words)

theorem selectAndClaim (reached : s.Reachable) {project partition size : String}
    {tags : List String} {words : Placement.RandomWords}
    (claims : s.selectAndClaim project partition size tags words = .ok (m, after)) :
    after.Reachable := by
  have next := reached.effect (.selectAndClaim project partition size tags words)
  rw [Operation.effect, claims] at next
  exact next

/-- A machine is stored under the id of its record. -/
theorem id_eq (reached : s.Reachable) (found : s.machine? id = some m) : m.id = id := by
  obtain ⟨ops, rfl⟩ := reached
  exact (accounts_history ops).id_of_stored found

/-- A listed machine is stored under its own id. -/
theorem stored_of_listed (reached : s.Reachable) (listed : m ∈ s.listMachines) :
    s.machine? m.id = some m := by
  obtain ⟨id, found⟩ := mem_listMachines.mp listed
  rw [reached.id_eq found]
  exact found

/-- No two machines of the list have the same id. -/
theorem nodup_ids (reached : s.Reachable) : (s.listMachines.map (·.id)).Nodup := by
  have keys : s.listMachines.map (·.id) = s.machines.keys := by
    rw [listMachines, Table.values, Table.keys, List.map_map]
    refine List.map_congr_left fun entry mem => ?_
    exact reached.id_eq ((Table.mem_entries_iff s.machines).mp mem)
  rw [keys]
  exact s.machines.nodup_keys

/-- In a reachable store networks and leases stand under their own keys. -/
theorem keyed (reached : s.Reachable) : s.Keyed := by
  obtain ⟨ops, rfl⟩ := reached
  exact Keyed.history ops

/-- The lease found for an address is a lease of that address. -/
theorem lease_address (reached : s.Reachable) {a : Address} {l : Lease}
    (leased : s.lease? a = some l) : l.address = a :=
  Address.text_injective (reached.keyed.lease a.text l leased)

end Reachable

end MachinePool.Store
