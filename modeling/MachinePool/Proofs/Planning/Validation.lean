import MachinePool.Allocation.Validation
import MachinePool.Proofs.Checks
import Mathlib.Data.List.Perm.Basic

/-!
Which requests have an acceptable structure.

`validate_eq_ok_iff` lists what is checked. The addresses pass when every text
spells one and no two texts spell the same one (`checkAddresses_eq_ok_iff`), so
neither their order nor that of the networks matters for passing, and that of the
networks does not even matter for the error (`validate_perm_networks`).
-/

namespace MachinePool

theorem givenText_eq_some_iff {given : Option String} {word : String} :
    givenText given = some word ↔ given = some word ∧ word ≠ "" := by
  simp [givenText, Option.filter_eq_some_iff]

namespace Request

variable {r : Request} {text : String} {texts : List String} {seen : List Address} {a : Address}

theorem require_eq_ok_iff {condition : Bool} {reason : String} {u : Unit} :
    require condition reason = .ok u ↔ condition = true := by
  cases condition <;> simp [require]

theorem readAddress_eq_ok_iff : readAddress text = .ok a ↔ Address.ofText? text = some a := by
  unfold readAddress
  cases Address.ofText? text <;> simp

/-- The texts spell addresses, and each one is spelled for the first time. -/
theorem checkAddresses_eq_ok_iff :
    checkAddresses seen texts = .ok () ↔
      (∀ text ∈ texts, ∃ a, Address.ofText? text = some a) ∧
        (texts.filterMap Address.ofText?).Nodup ∧
        ∀ a ∈ texts.filterMap Address.ofText?, a ∉ seen := by
  induction texts generalizing seen with
  | nil => simp [checkAddresses]
  | cons text texts ih =>
      simp only [checkAddresses, bind_eq_ok_iff, readAddress_eq_ok_iff, List.forall_mem_cons]
      constructor
      · rintro ⟨a, spelled, rest⟩
        split at rest
        · cases rest
        · next fresh =>
            obtain ⟨all, distinct, unseen⟩ := ih.mp rest
            have absent : a ∉ texts.filterMap Address.ofText? := fun mem =>
              unseen a mem List.mem_cons_self
            rw [List.filterMap_cons_some spelled, List.nodup_cons, List.forall_mem_cons]
            exact ⟨⟨⟨a, spelled⟩, all⟩, ⟨absent, distinct⟩, fresh, fun b mem =>
              mt (List.mem_cons_of_mem a) (unseen b mem)⟩
      · rintro ⟨⟨⟨a, spelled⟩, all⟩, distinct, unseen⟩
        rw [List.filterMap_cons_some spelled] at distinct unseen
        obtain ⟨absent, distinct⟩ := List.nodup_cons.mp distinct
        obtain ⟨fresh, unseen⟩ := List.forall_mem_cons.mp unseen
        refine ⟨a, spelled, ?_⟩
        rw [if_neg fresh]
        refine ih.mpr ⟨all, distinct, fun b mem known => ?_⟩
        rcases List.mem_cons.mp known with rfl | known
        · exact absent mem
        · exact unseen b mem known

/-- What the structure of a request is checked for. -/
theorem validate_eq_ok_iff :
    r.validate = .ok () ↔
      r.project ≠ "" ∧ r.creator ≠ "" ∧
        (r.namedMachine.isSome || r.namedSize.isSome) = true ∧
        (r.namedMachine.isSome || r.namedPartition.isSome) = true ∧
        checkAddresses [] r.addresses = .ok () ∧ checkKeys r.sshKeys = .ok () ∧
        r.firewallReachable = true ∧ r.enoughAddresses = true := by
  simp only [validate, bind_eq_ok_iff, require_eq_ok_iff, decide_eq_true_eq, Unique.exists_iff,
    PUnit.default_eq_unit]

/-! ### Order -/

section Order

variable {networks : List NetworkRequest} {addresses : List String}

theorem firewallReachable_perm (sameNetworks : networks.Perm r.networks)
    (sameAddresses : addresses.Perm r.addresses) :
    firewallReachable { r with networks := networks, addresses := addresses } =
      r.firewallReachable := by
  have wanting : networks.any (·.wantsAuto) = r.networks.any (·.wantsAuto) := by
    rw [Bool.eq_iff_iff, List.any_eq_true, List.any_eq_true]
    simp only [sameNetworks.mem_iff]
  simp only [firewallReachable, sameAddresses.isEmpty_eq, wanting]

theorem enoughAddresses_perm (sameNetworks : networks.Perm r.networks)
    (sameAddresses : addresses.Perm r.addresses) :
    enoughAddresses { r with networks := networks, addresses := addresses } = r.enoughAddresses := by
  simp only [enoughAddresses, sameNetworks.countP_eq, sameAddresses.length_eq]

/-- The order of the networks does not matter for what is found wrong. -/
theorem validate_perm_networks (sameNetworks : networks.Perm r.networks) :
    validate { r with networks := networks } = r.validate := by
  have reachable := firewallReachable_perm sameNetworks (.refl r.addresses)
  have enough := enoughAddresses_perm sameNetworks (.refl r.addresses)
  unfold validate
  rw [reachable, enough]
  rfl

/-- Whether addresses pass does not depend on their order. -/
theorem checkAddresses_perm (same : addresses.Perm texts) :
    checkAddresses [] addresses = .ok () ↔ checkAddresses [] texts = .ok () := by
  have spelled := same.filterMap Address.ofText?
  simp only [checkAddresses_eq_ok_iff, same.mem_iff, spelled.nodup_iff, spelled.mem_iff]

/-- The order of the addresses does not matter for passing. -/
theorem validate_perm_addresses (same : addresses.Perm r.addresses) :
    validate { r with addresses := addresses } = .ok () ↔ r.validate = .ok () := by
  have reachable := firewallReachable_perm (.refl r.networks) same
  have enough := enoughAddresses_perm (.refl r.networks) same
  simp only [validate_eq_ok_iff, checkAddresses_perm same, reachable, enough]
  rfl

end Order

end Request

end MachinePool
