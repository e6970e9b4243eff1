import MachinePool.Proofs.Planning.Consistency
import Mathlib.Data.Option.Basic

/-!
The order in which networks and addresses are requested.

Distinct networks are looked at in the order of their ids, so nothing that is
planned or found wrong depends on the order in which they are requested
(`Store.plan_perm_networks`). The addresses are bound in the order given, and that
order decides which of several faults is reported; but whether all are bound does
not depend on it, nor does anything in the plan but the order of the leases of a
network (`Plan.Alike`).

* `order_irrelevant`: what becomes of a request whose networks and addresses come
  in another order.
-/

namespace MachinePool

variable {s : Store} {r : Request} {partition id : String} {superNetworks : List Network}
variable {plan plan' : Plan} {texts texts' : List String} {hasUnshared : Bool}

/-! ### Plans up to the order of leases -/

/-- Planned networks that differ in nothing but the order of their leases. -/
structure PlannedNetwork.Alike (p q : PlannedNetwork) : Prop where
  network : p.network = q.network
  type : p.type = q.type
  auto : p.auto = q.auto
  leases : p.leases.Perm q.leases

/-- Plans of the same networks, which differ in nothing but the order of the leases of each. -/
def Plan.Alike (plan plan' : Plan) : Prop :=
  ∀ id, Option.Rel PlannedNetwork.Alike (plan.get? id) (plan'.get? id)

/-- Where one of two alike plans leaves no network without an address, neither does the other. -/
theorem Plan.Alike.checkAddressed (alike : plan.Alike plan')
    (addressed : checkAddressed plan' = .ok ()) : MachinePool.checkAddressed plan = .ok () := by
  rw [checkAddressed_eq_ok_iff] at addressed ⊢
  intro id p planned
  have same := alike id
  rw [planned] at same
  cases planned' : plan'.get? id with
  | none =>
      rw [planned'] at same
      cases same
  | some q =>
      rw [planned'] at same
      cases same with
      | some same =>
          rw [same.auto, ← List.isEmpty_eq_false_iff, same.leases.isEmpty_eq,
            List.isEmpty_eq_false_iff]
          exact addressed id q planned'

/-! ### The order of the networks -/

section Networks

variable {networks : List NetworkRequest}

theorem Request.networksById_perm (distinct : (r.networks.map (·.network)).Nodup)
    (same : networks.Perm r.networks) :
    networksById { r with networks := networks } = r.networksById := by
  have keys : ((r.networks.map fun q => (q.network, q)).map (·.1)).Nodup := by
    simpa [Function.comp_def] using distinct
  exact congrArg Table.values (Table.ofList_perm keys (same.map _))

/-- Networks in another order are planned or refused alike. -/
theorem Store.plan_perm_networks (same : networks.Perm r.networks) :
    s.plan { r with networks := networks } partition superNetworks =
      s.plan r partition superNetworks := by
  have ids : (networks.map (·.network)).Nodup ↔ (r.networks.map (·.network)).Nodup :=
    (same.map _).nodup_iff
  unfold Store.plan
  by_cases distinct : (r.networks.map (·.network)).Nodup
  · simp only [ids, Request.networksById_perm distinct same]
  · simp only [ids, distinct, not_false_eq_true, if_true]
    rfl

/-- Networks in another order are planned or refused alike, also for the structure's sake. -/
theorem Store.validateAndPlan_perm_networks (same : networks.Perm r.networks) :
    s.validateAndPlan { r with networks := networks } partition superNetworks =
      s.validateAndPlan r partition superNetworks := by
  rw [validateAndPlan, Request.validate_perm_networks same, plan_perm_networks same]
  rfl

end Networks

/-! ### The order of the addresses -/

/-- What is bound to a network in another order leaves it alike. -/
theorem Store.Reachable.alike_bindAll (reached : s.Reachable)
    (distinct : ((s.allLeasesNamed texts).map (·.address)).Nodup) (same : texts'.Perm texts)
    (f : FoundNetwork) :
    ((f.planned hasUnshared).bindAll (s.leasesNamed texts' id)).Alike
      ((f.planned hasUnshared).bindAll (s.leasesNamed texts id)) := by
  have named : (texts'.filterMap s.leaseNamed).Perm (texts.filterMap s.leaseNamed) :=
    same.filterMap _
  have leases : (s.allLeasesNamed texts').Perm (s.allLeasesNamed texts) := named.map _
  have distinct' : ((s.allLeasesNamed texts').map (·.address)).Nodup :=
    (leases.map _).nodup_iff.mpr distinct
  have here : (s.leasesNamed texts' id).Perm (s.leasesNamed texts id) := named.filter _
  refine ⟨by simp, by simp, ?auto, ?leases⟩
  case auto =>
    rw [PlannedNetwork.bindAll_auto, PlannedNetwork.bindAll_auto, here.isEmpty_eq]
  case leases =>
    rw [reached.leases_bindAll distinct', reached.leases_bindAll distinct]
    exact leases.filter _

/-- Addresses bound in another order leave a plan alike. -/
theorem Store.Reachable.alike_bindNamed (reached : s.Reachable) {found : List FoundNetwork}
    (ids : (found.map (·.request.network)).Nodup)
    (distinct : ((s.allLeasesNamed texts).map (·.address)).Nodup) (same : texts'.Perm texts)
    (hasUnshared : Bool) :
    Plan.Alike (s.bindNamed texts' (initialPlan hasUnshared found))
      (s.bindNamed texts (initialPlan hasUnshared found)) := by
  intro id
  rw [bindNamed, bindNamed, Table.get?_mapKeyed, Table.get?_mapKeyed]
  cases planned : (initialPlan hasUnshared found).get? id with
  | none => exact .none
  | some p =>
      obtain ⟨f, -, -, rfl⟩ := (get?_initialPlan_eq_some_iff ids).mp planned
      exact .some (reached.alike_bindAll distinct same f)

/-- A request whose addresses are distinct is also planned when they come in another order. -/
theorem Store.Reachable.plan_perm_addresses (reached : s.Reachable) {addresses : List String}
    (distinct : (r.addresses.filterMap Address.ofText?).Nodup)
    (same : addresses.Perm r.addresses) (planned : s.plan r partition superNetworks = .ok plan) :
    ∃ plan', s.plan { r with addresses := addresses } partition superNetworks = .ok plan' ∧
      plan'.Alike plan := by
  obtain ⟨unique, superNetwork, found, isSuper, all, counts, placed, binding, addressed⟩ :=
    plan_eq_ok_iff.mp planned
  obtain ⟨leased, rfl⟩ := foldlM_bindAddress_eq_ok_iff.mp binding
  have named : ∀ text ∈ r.addresses, ∃ a l, s.leaseNamed text = some (a, l) := by
    intro text mem
    obtain ⟨a, l, named, -⟩ := leased text mem
    exact ⟨a, l, named⟩
  rw [← reached.map_address_allLeasesNamed named] at distinct
  have alike := reached.alike_bindNamed (nodup_found unique all) distinct same
    (0 < found.countP (·.attachable = .tenant false))
  -- The stages before the addresses see nothing of their order.
  refine ⟨_, plan_eq_ok_iff.mpr ⟨unique, superNetwork, found, isSuper, all, counts, placed, ?_,
    alike.checkAddressed addressed⟩, alike⟩
  exact foldlM_bindAddress_eq_ok_iff.mpr ⟨fun text mem => leased text (same.mem_iff.mp mem), rfl⟩

/-- A valid request that is planned is also planned when its addresses come in another order. -/
theorem Store.Reachable.validateAndPlan_perm_addresses (reached : s.Reachable)
    {addresses : List String} (same : addresses.Perm r.addresses)
    (planned : s.validateAndPlan r partition superNetworks = .ok plan) :
    ∃ plan', s.validateAndPlan { r with addresses := addresses } partition superNetworks =
      .ok plan' ∧ plan'.Alike plan := by
  obtain ⟨_, valid, planned⟩ := bind_eq_ok_iff.mp planned
  obtain ⟨-, -, -, -, spelled, -⟩ := Request.validate_eq_ok_iff.mp valid
  obtain ⟨-, distinct, -⟩ := Request.checkAddresses_eq_ok_iff.mp spelled
  obtain ⟨plan', planned', alike⟩ := reached.plan_perm_addresses distinct same planned
  have valid' := (Request.validate_perm_addresses same).mpr valid
  exact ⟨plan', bind_eq_ok_iff.mpr ⟨(), valid', planned'⟩, alike⟩

/-! ### Both -/

/-- A request whose networks come in another order has the same plan or is refused for the same
reason. Where the addresses come in another order too, it is planned just as well, and the plans are
the same up to the order of the leases of a network. -/
theorem order_irrelevant {s : Store} (reached : s.Reachable) (r : Request) (partition : String)
    (superNetworks : List Network) {networks : List NetworkRequest}
    (sameNetworks : networks.Perm r.networks) :
    s.validateAndPlan { r with networks := networks } partition superNetworks =
        s.validateAndPlan r partition superNetworks ∧
      ∀ addresses : List String, addresses.Perm r.addresses →
        ((∃ plan, s.validateAndPlan { r with networks := networks, addresses := addresses }
            partition superNetworks = .ok plan) ↔
          ∃ plan, s.validateAndPlan r partition superNetworks = .ok plan) ∧
        ∀ plan' plan, s.validateAndPlan { r with networks := networks, addresses := addresses }
            partition superNetworks = .ok plan' →
          s.validateAndPlan r partition superNetworks = .ok plan → plan'.Alike plan := by
  refine ⟨Store.validateAndPlan_perm_networks sameNetworks, fun addresses sameAddresses => ?_⟩
  let readdressed : Request := { r with addresses := addresses }
  have moved : s.validateAndPlan { r with networks := networks, addresses := addresses } partition
      superNetworks = s.validateAndPlan readdressed partition superNetworks :=
    Store.validateAndPlan_perm_networks (r := readdressed) sameNetworks
  rw [moved]
  refine ⟨⟨?back, ?forth⟩, ?alike⟩
  case back =>
    rintro ⟨plan, planned⟩
    obtain ⟨plan', planned', -⟩ :=
      reached.validateAndPlan_perm_addresses (r := readdressed) sameAddresses.symm planned
    exact ⟨plan', planned'⟩
  case forth =>
    rintro ⟨plan, planned⟩
    obtain ⟨plan', planned', -⟩ := reached.validateAndPlan_perm_addresses sameAddresses planned
    exact ⟨plan', planned'⟩
  case alike =>
    intro plan' plan planned' planned
    obtain ⟨_, again, alike⟩ := reached.validateAndPlan_perm_addresses sameAddresses planned
    cases again.symm.trans planned'
    exact alike

/-- The gateway is planned alike when all is asked for in the opposite order, where its two outside
addresses change places. -/
theorem gateway_order_irrelevant :
    let s := (history Operation.gatewaySite).store
    let networks := Request.gateway.networks.reverse
    let addresses := Request.gateway.addresses.reverse
    s.Reachable ∧ networks.Perm Request.gateway.networks ∧
      addresses.Perm Request.gateway.addresses ∧
      s.validateAndPlan { Request.gateway with networks := networks } "p" s.superNetworks =
        .ok .gateway ∧
      ∃ plan, s.validateAndPlan { Request.gateway with networks := networks, addresses := addresses }
        "p" s.superNetworks = .ok plan ∧ plan ≠ .gateway ∧ plan.Alike .gateway := by
  intro s networks addresses
  have reached : s.Reachable := Store.reachable_history _
  have sameNetworks : networks.Perm Request.gateway.networks := List.reverse_perm _
  have sameAddresses : addresses.Perm Request.gateway.addresses := List.reverse_perm _
  have planned : s.validateAndPlan .gateway "p" s.superNetworks = .ok .gateway := by
    decide +kernel
  have differs : s.validateAndPlan
      { Request.gateway with networks := networks, addresses := addresses } "p" s.superNetworks ≠
        .ok .gateway := by
    decide +kernel
  obtain ⟨same, turned⟩ := order_irrelevant reached .gateway "p" s.superNetworks sameNetworks
  obtain ⟨succeeds, alike⟩ := turned addresses sameAddresses
  obtain ⟨plan, planned'⟩ := succeeds.mpr ⟨_, planned⟩
  refine ⟨reached, sameNetworks, sameAddresses, same.trans planned, plan, planned', ?_,
    alike plan _ planned' planned⟩
  rintro rfl
  exact differs planned'

end MachinePool
