import MachinePool.Proofs.Journal.Reachable

/-!
Leases are found by address.

A lease is stored under the canonical text of its address, and a text is read
before it is looked up, so how an address is spelled never matters: no two
addresses share a key, every spelling leads to the lease of its address, and
putting a lease changes the answer for no other address
(`leases_found_by_address`). A network lists an address at most once because no
two leases of a store that was reached by calls have the same one.
-/

namespace MachinePool

open Address

namespace Store

variable {s : Store}

/-- A lease is found under its address, and other addresses are looked up as before. -/
theorem lease?_putLease (s : Store) (l : Lease) (a : Address) :
    (s.putLease l).lease? a = if a = l.address then some l else s.lease? a := by
  have sameText : a.text = l.key ↔ a = l.address := text_injective.eq_iff
  rw [lease?, putLease, Table.get?_insert]
  simp only [sameText]
  rfl

/-- No two leases have the same address. -/
theorem Reachable.nodup_addresses (reached : s.Reachable) :
    (s.leases.values.map (·.address)).Nodup := by
  have keys : (s.leases.values.map (·.address)).map Address.text = s.leases.keys := by
    rw [Table.values, Table.keys, List.map_map, List.map_map]
    refine List.map_congr_left fun entry mem => ?_
    exact reached.keyed.lease entry.1 entry.2 ((Table.mem_entries_iff s.leases).mp mem)
  apply List.Nodup.of_map
  rw [keys]
  exact s.leases.nodup_keys

theorem Reachable.nodup_leasesOf (reached : s.Reachable) (network : String) :
    ((s.leasesOf network).map (·.address)).Nodup :=
  reached.nodup_addresses.sublist (List.filter_sublist.map _)

end Store

/-- A text is read as an address exactly when it spells it, as its canonical text does, and leases
have the same key only for the same address. In a store that was reached by calls, a lease that is
put is found under every spelling of its address and no other one, and no network lists an address
twice. -/
theorem leases_found_by_address :
    (∀ (t : String) (a : Address), ofText? t = some a ↔ Spells a t.toList) ∧
    (∀ a : Address, ofText? a.text = some a) ∧
    (∀ l l' : Lease, l.key = l'.key ↔ l.address = l'.address) ∧
    ∀ s : Store, s.Reachable →
      (∀ (l : Lease) (t : String) (a : Address), Spells a t.toList →
        (ofText? t).bind (s.putLease l).lease? =
          if a = l.address then some l else (ofText? t).bind s.lease?) ∧
      ∀ network, ((s.leasesOf network).map (·.address)).Nodup := by
  refine ⟨fun _ _ => ofText?_eq_some_iff, ofText?_text, ?keys, ?reachable⟩
  case keys =>
    intro l l'
    exact text_injective.eq_iff
  case reachable =>
    intro s reached
    constructor
    · intro l t a spelled
      rw [ofText?_eq_some_iff.mpr spelled]
      exact s.lease?_putLease l a
    · exact reached.nodup_leasesOf

/-- A lease is found under a spelling in capitals, with needless zeros and octets at the end. -/
theorem lease_found_under_long_spelling :
    let a : Address := .v6 ⟨[0x2001, 0xdb8, 0, 0, 0, 1, 0xc0a8, 0x107], rfl⟩
    let old : Lease := ⟨a, "", "x", "net"⟩
    let s := (history [.putLease old, .putLease { old with address := .v4 10 0 0 1 }]).store
    let new := { old with project := "y" }
    let found := fun (s : Store) t => (ofText? t).bind s.lease?
    s.Reachable ∧ Spells a "2001:0DB8::0001:192.168.1.7".toList ∧
    a.text = "2001:db8::1:c0a8:107" ∧
    found s "2001:0DB8::0001:192.168.1.7" = some old ∧
    found (s.putLease new) "2001:0DB8::0001:192.168.1.7" = some new ∧
    found (s.putLease new) "10.0.0.1" = found s "10.0.0.1" ∧
    ((s.leasesOf "net").map (·.address)).Nodup := by
  intro a old s new found
  have reached : s.Reachable := Store.reachable_history _
  obtain ⟨spells, -, -, inStores⟩ := leases_found_by_address
  obtain ⟨lookUps, listed⟩ := inStores s reached
  have spelled : Spells a "2001:0DB8::0001:192.168.1.7".toList := (spells _ a).mp (by decide)
  have octets : Spells (.v4 10 0 0 1) "10.0.0.1".toList := .octets 10 0 0 1
  exact ⟨reached, spelled, by decide, by decide, lookUps new _ a spelled,
    lookUps new _ (.v4 10 0 0 1) octets, listed "net"⟩

end MachinePool
