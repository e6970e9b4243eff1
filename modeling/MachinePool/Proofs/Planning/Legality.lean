import MachinePool.Proofs.Journal.Operation
import MachinePool.Proofs.Planning.Addresses
import Mathlib.Data.List.Count

/-!
Which requests can be planned.

A request is legal for a partition whose super network is known when its
networks are distinct, known and attachable, few enough of them are private for
its role, the private ones lie in the partition and are shared or owned, the
addresses are leased to the project out of requested networks, and no network is
left without an address (`Store.Legal`). None of this speaks of an order or of
stages.

* `planned_iff_legal`: exactly the legal requests are planned.
-/

namespace MachinePool

/-! ### Legal requests -/

/-- Whether a network is private and may only be used by the project that owns it. -/
def Network.isUnshared (n : Network) : Bool := n.isPrivate && !n.isShared

def Store.requested (s : Store) (r : Request) : List Network :=
  r.networks.filterMap (s.network? ·.network)

/-- The first private super network of a partition among some networks. -/
def IsSuperNetwork (networks : List Network) (partition : String) (n : Network) : Prop :=
  (n.kind = .privateSuper ∧ n.partition = some partition) ∧
    ∃ before after, networks = before ++ n :: after ∧
      ∀ earlier ∈ before, ¬ (earlier.kind = .privateSuper ∧ earlier.partition = some partition)

/-- What a request must satisfy to be planned for a partition with a super network. -/
structure Store.Legal (s : Store) (r : Request) (partition superNetwork : String) : Prop where
  distinct : (r.networks.map (·.network)).Nodup
  attachable : ∀ q ∈ r.networks, ∃ n, s.network? q.network = some n ∧
    (n.kind = .external ∨ n.isPrivate = true)
  somePrivate : 1 ≤ (s.requested r).countP (·.isPrivate)
  oneUnshared : (s.requested r).countP (·.isUnshared) ≤ 1
  /-- A machine has one private network. -/
  machine : r.role = .machine → (s.requested r).countP (·.isPrivate) = 1
  /-- A firewall without an unshared private network has one shared network. -/
  firewall : r.role = .firewall → (s.requested r).countP (·.isUnshared) = 0 →
    (s.requested r).countP (·.isShared) ≤ 1
  /-- Private networks are carved out of the partition's super network, and are shared or owned. -/
  placed : ∀ n ∈ s.requested r, n.isPrivate = true →
    n.partition = some partition ∧ (∃ shared, n.kind = .tenant superNetwork shared) ∧
      (n.isShared = true ∨ n.project = some r.project)
  /-- Addresses are leased to the project out of requested networks, whoever owns these. -/
  leased : ∀ text ∈ r.addresses, ∃ a l, Address.ofText? text = some a ∧ s.lease? a = some l ∧
    (∃ q ∈ r.networks, q.network = l.network) ∧ l.project = r.project
  /-- A network that acquires no address is given one. -/
  addressed : ∀ q ∈ r.networks, q.autoAcquire = some false →
    ∃ text ∈ r.addresses, ∃ a l, Address.ofText? text = some a ∧ s.lease? a = some l ∧
      l.network = q.network

variable {s : Store} {r : Request} {partition superNetwork : String} {superNetworks : List Network}
variable {found : List FoundNetwork}

/-! ### The super network -/

/-- The super network that is found is the first one of the partition. -/
theorem find?_superNetwork_iff {n : Network} :
    superNetworks.find? (fun n => n.isPrivateSuper && n.partition = some partition) = some n ↔
      IsSuperNetwork superNetworks partition n := by
  have test : ∀ n : Network, (n.isPrivateSuper && decide (n.partition = some partition)) = true ↔
      n.kind = .privateSuper ∧ n.partition = some partition := fun n => by
    simp [Network.isPrivateSuper]
  simp only [List.find?_eq_some_iff_append, IsSuperNetwork, Bool.not_eq_true', ← Bool.not_eq_true,
    test]

/-! ### The networks that are found -/

/-- Distinct networks are only put into the order of their ids. -/
theorem Request.perm_networksById (distinct : (r.networks.map (·.network)).Nodup) :
    r.networksById.Perm r.networks := by
  have keys : ((r.networks.map fun q => (q.network, q)).map (·.1)).Nodup := by
    simpa [Function.comp_def] using distinct
  have same := (Table.perm_entries_ofList keys).map (·.2)
  simpa [networksById, Table.values, Function.comp_def] using same

/-- The networks attached as shared or as unshared ones are the ones that are. -/
theorem countP_attachable_eq_tenant (all : ∀ f ∈ found,
      s.network? f.request.network = some f.network ∧ Attachable.of f.network = .ok f.attachable)
    (shared : Bool) :
    found.countP (·.attachable = .tenant shared) =
      (found.map (·.network)).countP fun n => n.isPrivate && n.isShared == shared := by
  rw [List.countP_map]
  refine List.countP_congr fun f mem => ?_
  simp [Attachable.eq_tenant_iff (all f mem).2 shared]

/-- Private networks are unshared or shared. -/
theorem countP_isPrivate (networks : List Network) :
    networks.countP (·.isPrivate) =
      networks.countP (·.isUnshared) + networks.countP (·.isShared) := by
  induction networks with
  | nil => rfl
  | cons n networks ih =>
      have one : (if n.isPrivate then 1 else 0) =
          (if n.isUnshared then 1 else 0) + if n.isShared then 1 else 0 := by
        unfold Network.isUnshared Network.isPrivate Network.isShared
        cases n.kind with
        | tenant parent shared => cases shared <;> rfl
        | _ => rfl
      simp only [List.countP_cons, ih, one]
      omega

section Found

variable (distinct : (r.networks.map (·.network)).Nodup)
variable (all : r.networksById.mapM s.findNetwork = .ok found)

include distinct all

/-- The networks that are found are the stored ones the request asks for. -/
theorem perm_found : (found.map (·.network)).Perm (s.requested r) := by
  obtain ⟨requests, stored⟩ := Store.mapM_findNetwork_eq_ok_iff.mp all
  have looked : found.map (·.network) = r.networksById.filterMap (s.network? ·.network) := by
    rw [← requests, List.filterMap_map, ← List.filterMap_eq_map]
    exact List.filterMap_congr fun f mem => ((stored f mem).1).symm
  rw [looked]
  exact (Request.perm_networksById distinct).filterMap _

/-- The found networks are the requested ones. -/
theorem mem_found_iff {q : NetworkRequest} : (∃ f ∈ found, f.request = q) ↔ q ∈ r.networks := by
  obtain ⟨requests, -⟩ := Store.mapM_findNetwork_eq_ok_iff.mp all
  rw [← (Request.perm_networksById distinct).mem_iff, ← requests, List.mem_map]

theorem nodup_found : (found.map (·.request.network)).Nodup := by
  obtain ⟨requests, -⟩ := Store.mapM_findNetwork_eq_ok_iff.mp all
  have keys : found.map (·.request.network) = r.networksById.map (·.network) := by
    rw [← requests, List.map_map]
    rfl
  rw [keys]
  exact ((Request.perm_networksById distinct).map _).nodup_iff.mpr distinct

/-! ### What the stages demand of them -/

theorem countP_unshared : found.countP (·.attachable = .tenant false) =
    (s.requested r).countP (·.isUnshared) := by
  obtain ⟨-, stored⟩ := Store.mapM_findNetwork_eq_ok_iff.mp all
  rw [countP_attachable_eq_tenant stored, (perm_found distinct all).countP_eq]
  simp [Network.isUnshared]

theorem countP_shared : found.countP (·.attachable = .tenant true) =
    (s.requested r).countP (·.isShared) := by
  obtain ⟨-, stored⟩ := Store.mapM_findNetwork_eq_ok_iff.mp all
  rw [countP_attachable_eq_tenant stored, (perm_found distinct all).countP_eq]
  refine List.countP_congr fun n _ => ?_
  cases kind : n.kind <;> simp [Network.isPrivate, Network.isShared, kind]

/-- The numbers fit the role exactly when the stored networks obey the rules. -/
theorem counts_iff :
    checkPrivateCounts r.role (found.countP (·.attachable = .tenant false))
        (found.countP (·.attachable = .tenant true)) = .ok () ↔
      1 ≤ (s.requested r).countP (·.isPrivate) ∧ (s.requested r).countP (·.isUnshared) ≤ 1 ∧
      (r.role = .machine → (s.requested r).countP (·.isPrivate) = 1) ∧
      (r.role = .firewall → (s.requested r).countP (·.isUnshared) = 0 →
        (s.requested r).countP (·.isShared) ≤ 1) := by
  rw [countP_unshared distinct all, countP_shared distinct all, checkPrivateCounts_eq_ok_iff,
    countP_isPrivate]
  rfl

/-- The private networks pass their checks exactly when each lies in the partition and is shared or
owned. -/
theorem placed_iff :
    (∀ f ∈ found, checkPrivateNetwork r.project partition superNetwork f = .ok ()) ↔
      ∀ n ∈ s.requested r, n.isPrivate = true →
        n.partition = some partition ∧ (∃ shared, n.kind = .tenant superNetwork shared) ∧
          (n.isShared = true ∨ n.project = some r.project) := by
  obtain ⟨-, stored⟩ := Store.mapM_findNetwork_eq_ok_iff.mp all
  have each : (∀ f ∈ found, checkPrivateNetwork r.project partition superNetwork f = .ok ()) ↔
      ∀ n ∈ found.map (·.network), n.isPrivate = true →
        n.partition = some partition ∧ (∃ shared, n.kind = .tenant superNetwork shared) ∧
          (n.isShared = true ∨ n.project = some r.project) := by
    rw [List.forall_mem_map]
    exact forall₂_congr fun f mem => checkPrivateNetwork_eq_ok_iff (stored f mem).2
  rw [each]
  exact forall_congr' fun n => by rw [(perm_found distinct all).mem_iff]

/-- What is planned under an id before any address is bound. -/
theorem isSome_get?_initialPlan_iff {hasUnshared : Bool} {id : String} :
    ((initialPlan hasUnshared found).get? id).isSome = true ↔
      ∃ q ∈ r.networks, q.network = id := by
  rw [Option.isSome_iff_exists]
  simp only [get?_initialPlan_eq_some_iff (nodup_found distinct all)]
  constructor
  · rintro ⟨_, f, mem, same, -⟩
    exact ⟨f.request, (mem_found_iff distinct all).mp ⟨f, mem, rfl⟩, same⟩
  · rintro ⟨q, mem, same⟩
    obtain ⟨f, mem', rfl⟩ := (mem_found_iff distinct all).mpr mem
    exact ⟨_, f, mem', same, rfl⟩

/-- Every network is addressed exactly when each one that acquires no address is given one. -/
theorem addressed_iff {hasUnshared : Bool} :
    checkAddressed (s.bindNamed r.addresses (initialPlan hasUnshared found)) = .ok () ↔
      ∀ q ∈ r.networks, q.autoAcquire = some false →
        ∃ text ∈ r.addresses, ∃ a l, Address.ofText? text = some a ∧ s.lease? a = some l ∧
          l.network = q.network := by
  simp only [checkAddressed_eq_ok_iff, Store.bindNamed, Table.get?_mapKeyed,
    Option.map_eq_some_iff, get?_initialPlan_eq_some_iff (nodup_found distinct all),
    ← Store.leasesNamed_ne_nil_iff]
  constructor
  · intro addressed q mem
    obtain ⟨f, mem', rfl⟩ := (mem_found_iff distinct all).mpr mem
    exact (f.addressed_iff hasUnshared _).mp (addressed _ _ ⟨_, ⟨f, mem', rfl, rfl⟩, rfl⟩)
  · rintro addressed id p ⟨_, ⟨f, mem, rfl, rfl⟩, rfl⟩
    have requested : f.request ∈ r.networks := (mem_found_iff distinct all).mp ⟨f, mem, rfl⟩
    exact (f.addressed_iff hasUnshared _).mpr (addressed f.request requested)

end Found

/-! ### Planning -/

/-- All requested networks are found exactly when each is stored and external or private. -/
theorem exists_found_iff (distinct : (r.networks.map (·.network)).Nodup) :
    (∃ found, r.networksById.mapM s.findNetwork = .ok found) ↔
      ∀ q ∈ r.networks, ∃ n, s.network? q.network = some n ∧
        (n.kind = .external ∨ n.isPrivate = true) := by
  have each : ∀ q : NetworkRequest, (∃ f, s.findNetwork q = .ok f) ↔
      ∃ n, s.network? q.network = some n ∧ (n.kind = .external ∨ n.isPrivate = true) := by
    intro q
    simp only [Store.findNetwork_eq_ok_iff, ← Attachable.exists_of_eq_ok_iff]
    constructor
    · rintro ⟨f, rfl, stored, attachable⟩
      exact ⟨f.network, stored, f.attachable, attachable⟩
    · rintro ⟨n, stored, a, attachable⟩
      exact ⟨⟨q, n, a⟩, rfl, stored, attachable⟩
  rw [exists_mapM_eq_ok_iff]
  simp only [each]
  exact forall_congr' fun q => by rw [(Request.perm_networksById distinct).mem_iff]

/-- What is planned is legal for the first private super network of the partition. -/
theorem legal_of_plan {plan : Plan} (planned : s.plan r partition superNetworks = .ok plan) :
    ∃ superNetwork, IsSuperNetwork superNetworks partition superNetwork ∧
      s.Legal r partition superNetwork.id := by
  obtain ⟨distinct, superNetwork, found, isSuper, all, counts, placed, binding, addressed⟩ :=
    Store.plan_eq_ok_iff.mp planned
  obtain ⟨leased, rfl⟩ := Store.foldlM_bindAddress_eq_ok_iff.mp binding
  obtain ⟨somePrivate, oneUnshared, machine, firewall⟩ := (counts_iff distinct all).mp counts
  refine ⟨superNetwork, find?_superNetwork_iff.mp isSuper, distinct,
    (exists_found_iff distinct).mp ⟨found, all⟩, somePrivate, oneUnshared, machine, firewall,
    (placed_iff distinct all).mp placed, ?_, (addressed_iff distinct all).mp addressed⟩
  intro text mem
  obtain ⟨a, l, named, planned, own⟩ := leased text mem
  obtain ⟨spelled, leased⟩ := Store.leaseNamed_eq_some_iff.mp named
  exact ⟨a, l, spelled, leased, (isSome_get?_initialPlan_iff distinct all).mp planned, own⟩

/-- What is legal for the first private super network of the partition is planned. -/
theorem exists_plan_of_legal {superNetwork : Network}
    (isSuper : IsSuperNetwork superNetworks partition superNetwork)
    (legal : s.Legal r partition superNetwork.id) :
    ∃ plan, s.plan r partition superNetworks = .ok plan := by
  obtain ⟨found, all⟩ := (exists_found_iff legal.distinct).mpr legal.attachable
  have counts := (counts_iff legal.distinct all).mpr
    ⟨legal.somePrivate, legal.oneUnshared, legal.machine, legal.firewall⟩
  refine ⟨_, Store.plan_eq_ok_iff.mpr ⟨legal.distinct, superNetwork, found,
    find?_superNetwork_iff.mpr isSuper, all, counts, (placed_iff legal.distinct all).mpr legal.placed,
    Store.foldlM_bindAddress_eq_ok_iff.mpr ⟨?_, rfl⟩,
    (addressed_iff legal.distinct all).mpr legal.addressed⟩⟩
  intro text mem
  obtain ⟨a, l, spelled, leased, requested, own⟩ := legal.leased text mem
  exact ⟨a, l, Store.leaseNamed_eq_some_iff.mpr ⟨spelled, leased⟩,
    (isSome_get?_initialPlan_iff legal.distinct all).mpr requested, own⟩

/-- A request is planned exactly when the partition has a private super network among the given ones
and the request is legal for the first of these. -/
theorem planned_iff_legal (s : Store) (r : Request) (partition : String)
    (superNetworks : List Network) :
    (∃ plan, s.plan r partition superNetworks = .ok plan) ↔
      ∃ superNetwork, IsSuperNetwork superNetworks partition superNetwork ∧
        s.Legal r partition superNetwork.id := by
  constructor
  · rintro ⟨plan, planned⟩
    exact legal_of_plan planned
  · rintro ⟨superNetwork, isSuper, legal⟩
    exact exists_plan_of_legal isSuper legal

/-- Calls that set up a partition with a network of a project, one it shares with others and one to
the outside, the latter two with addresses of the project. -/
def Operation.gatewaySite : List Operation :=
  [.putNetwork ⟨"super", "", none, some "p", [], .privateSuper⟩,
    .putNetwork ⟨"own", "", some "x", some "p", [], .tenant "super" false⟩,
    .putNetwork ⟨"common", "", some "y", some "p", [], .tenant "super" true⟩,
    .putNetwork ⟨"outside", "", none, none, [], .external⟩,
    .putLease ⟨.v4 192 0 2 7, "", "x", "outside"⟩, .putLease ⟨.v4 192 0 2 8, "", "x", "outside"⟩,
    .putLease ⟨.v4 10 0 0 1, "", "x", "common"⟩]

/-- A request for a firewall that connects the three networks. -/
def Request.gateway : Request where
  creator := "c"
  project := "x"
  role := .firewall
  partition := some "p"
  size := some "s"
  networks := [⟨"outside", some false⟩, ⟨"own", none⟩, ⟨"common", some true⟩]
  addresses := ["192.0.2.8", "10.0.0.1", "192.0.2.7"]

def Plan.gateway : Plan :=
  Table.ofList
    [("own", ⟨⟨"own", "", some "x", some "p", [], .tenant "super" false⟩,
      .privatePrimaryUnshared, [], true⟩),
    ("common", ⟨⟨"common", "", some "y", some "p", [], .tenant "super" true⟩,
      .privateSecondaryShared, [⟨.v4 10 0 0 1, "", "x", "common"⟩], false⟩),
    ("outside", ⟨⟨"outside", "", none, none, [], .external⟩, .external,
      [⟨.v4 192 0 2 8, "", "x", "outside"⟩, ⟨.v4 192 0 2 7, "", "x", "outside"⟩], false⟩)]

/-- The gateway can be planned and its request is legal. It is not once the network to the outside,
for which it acquires no address, is given none. -/
theorem gateway_is_legal :
    let s := (history Operation.gatewaySite).store
    let unaddressed := { Request.gateway with addresses := ["10.0.0.1"] }
    s.plan .gateway "p" s.superNetworks = .ok .gateway ∧ s.Legal .gateway "p" "super" ∧
      ¬ s.Legal unaddressed "p" "super" := by
  intro s unaddressed
  have isSuper : IsSuperNetwork s.superNetworks "p" ⟨"super", "", none, some "p", [], .privateSuper⟩ :=
    find?_superNetwork_iff.mp (by decide)
  have planned : s.plan .gateway "p" s.superNetworks = .ok .gateway := by decide +kernel
  have refused : s.plan unaddressed "p" s.superNetworks =
      .error (.missingAddress "outside" .external) := by decide +kernel
  refine ⟨planned, ?legal, ?illegal⟩
  case legal =>
    obtain ⟨superNetwork, isFirst, legal⟩ := (planned_iff_legal s _ _ _).mp ⟨_, planned⟩
    cases (find?_superNetwork_iff.mpr isSuper).symm.trans (find?_superNetwork_iff.mpr isFirst)
    exact legal
  case illegal =>
    intro legal
    obtain ⟨plan, accepted⟩ := (planned_iff_legal s _ _ _).mpr ⟨_, isSuper, legal⟩
    cases refused.symm.trans accepted

end MachinePool
