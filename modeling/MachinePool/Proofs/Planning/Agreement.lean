import MachinePool.Proofs.Allocation.Outcome
import MachinePool.Proofs.Planning.Consistency
import Mathlib.Data.List.Perm.Subperm

/-!
The structure of a request and its plan are checked apart, and the two checks
agree.

A request is first checked for its structure, with nothing looked up, and then
planned. What passes the first check is never refused for its structure by the
second one, which reads the same addresses again, and it names the partition and
the size that an allocation reads from it.

Two rules of the first check foresee what planning would find out: a firewall
needs an address or a network that acquires one, and networks that acquire none
must not outnumber the addresses. They refuse too little and never too much. In a
legal request every network that acquires no address is fed by an address of its
own, since an address is leased out of one network, so as many texts stand in the
request as such networks (`Store.Legal.enoughAddresses`); two texts may spell one
address, which only makes them more.

* `validation_agrees_with_planning`: both directions, for every request.
-/

namespace MachinePool

variable {s : Store} {r : Request} {partition superNetwork : String} {superNetworks : List Network}
variable {plan : Plan}

/-! ### The rules that foresee the plan -/

/-- The checks of the structure that are about one part of a request each. -/
def Request.validateParts (r : Request) : Except AllocationError Unit := do
  require (r.project ≠ "") "project id must be specified"
  require (r.creator ≠ "") "creator should be specified"
  require (r.namedMachine.isSome || r.namedSize.isSome)
    "when no machine id is given, a size id must be specified"
  require (r.namedMachine.isSome || r.namedPartition.isSome)
    "when no machine id is given, a partition id must be specified"
  checkAddresses [] r.addresses
  checkKeys r.sshKeys

/-- Where the two rules hold, they change nothing about what is found wrong. -/
theorem Request.validate_eq_validateParts (reachable : r.firewallReachable = true)
    (enough : r.enoughAddresses = true) : r.validate = r.validateParts := by
  have split : r.validate = (do
      r.validateParts
      require r.firewallReachable
        "when no ip is given at least one auto acquire network must be specified"
      require r.enoughAddresses
        "missing ip(s) for network(s) without automatic ip allocation") := by
    simp only [validate, validateParts, bind_assoc]
  rw [split, reachable, enough]
  exact bind_pure_unit

/-- The network out of which the address that a text spells is leased. -/
def Store.networkNamed (s : Store) (text : String) : Option String :=
  (s.leaseNamed text).map (·.2.network)

namespace Store.Legal

/-- A legal request asks for some network. -/
theorem exists_network (legal : s.Legal r partition superNetwork) : ∃ q, q ∈ r.networks := by
  have some : 0 < (s.requested r).countP (·.isPrivate) := legal.somePrivate
  obtain ⟨n, mem, -⟩ := List.countP_pos_iff.mp some
  obtain ⟨q, asked, -⟩ := List.mem_filterMap.mp mem
  exact ⟨q, asked⟩

/-- A network that acquires no address is one that a text of the request names. -/
theorem mem_networksNamed (legal : s.Legal r partition superNetwork) {q : NetworkRequest}
    (asked : q ∈ r.networks) (refrains : q.autoAcquire = some false) :
    q.network ∈ r.addresses.filterMap s.networkNamed := by
  obtain ⟨text, mem, a, l, spelled, leased, out⟩ := legal.addressed q asked refrains
  have named : s.leaseNamed text = some (a, l) := leaseNamed_eq_some_iff.mpr ⟨spelled, leased⟩
  apply List.mem_filterMap.mpr
  exact ⟨text, mem, by rw [networkNamed, named, Option.map_some, out]⟩

/-- Networks that acquire no address do not outnumber the addresses, as each of them is fed by
another one. -/
theorem enoughAddresses (legal : s.Legal r partition superNetwork) : r.enoughAddresses = true := by
  let fed := r.networks.filter (·.autoAcquire = some false)
  have distinct : (fed.map (·.network)).Nodup :=
    legal.distinct.sublist (List.filter_sublist.map _)
  have named : fed.map (·.network) ⊆ r.addresses.filterMap s.networkNamed := by
    intro id mem
    obtain ⟨q, kept, rfl⟩ := List.mem_map.mp mem
    obtain ⟨asked, refrains⟩ := List.mem_filter.mp kept
    exact legal.mem_networksNamed asked (of_decide_eq_true refrains)
  apply decide_eq_true
  calc r.networks.countP (·.autoAcquire = some false)
    _ = (fed.map (·.network)).length := by rw [List.countP_eq_length_filter, List.length_map]
    _ ≤ (r.addresses.filterMap s.networkNamed).length := (List.Nodup.subperm distinct named).length_le
    _ ≤ r.addresses.length := List.length_filterMap_le _ _

/-- Some network of a legal request acquires an address, or some address is given. -/
theorem firewallReachable (legal : s.Legal r partition superNetwork) :
    r.firewallReachable = true := by
  obtain ⟨q, asked⟩ := legal.exists_network
  unfold Request.firewallReachable
  cases wish : q.wantsAuto with
  | true =>
      have wanting : r.networks.any (·.wantsAuto) = true := List.any_eq_true.mpr ⟨q, asked, wish⟩
      rw [wanting, Bool.or_true]
  | false =>
      have refrains : q.autoAcquire = some false := by
        cases auto : q.autoAcquire with
        | none => simp [NetworkRequest.wantsAuto, auto] at wish
        | some b =>
            cases b with
            | true => simp [NetworkRequest.wantsAuto, auto] at wish
            | false => rfl
      obtain ⟨text, mem, -⟩ := legal.addressed q asked refrains
      have given : r.addresses.isEmpty = false :=
        Bool.eq_false_iff.mpr (mt List.isEmpty_iff.mp (List.ne_nil_of_mem mem))
      rw [given, Bool.not_false, Bool.or_true, Bool.true_or]

end Store.Legal

/-! ### Agreement -/

/-- What passes the check of its structure is never refused for its structure when it is planned,
and names the partition and the size that an allocation reads. What is planned satisfies the two
rules that foresee the plan, so without them nothing else would be found wrong with it. -/
theorem validation_agrees_with_planning (s : Store) (r : Request) (partition : String)
    (superNetworks : List Network) :
    (r.validate = .ok () →
      (∀ reason, s.plan r partition superNetworks ≠ .error (.invalidRequest reason)) ∧
      (r.namedMachine = none → ∃ own size, r.partition = some own ∧ r.size = some size ∧
        own ≠ "" ∧ size ≠ "" ∧ s.targetPartition r = .ok own ∧
        ∀ target words, s.claimFor r target words =
          s.selectAndClaim r.project target size r.tags words)) ∧
    ((∃ plan, s.plan r partition superNetworks = .ok plan) →
      r.firewallReachable = true ∧ r.enoughAddresses = true ∧ r.validate = r.validateParts) := by
  constructor
  · intro valid
    obtain ⟨-, -, -, -, addresses, -⟩ := Request.validate_eq_ok_iff.mp valid
    obtain ⟨spelled, -⟩ := Request.checkAddresses_eq_ok_iff.mp addresses
    constructor
    · intro reason
      exact (refusedFor_plan s r partition superNetworks).ne_invalidRequest spelled reason
    · intro unnamed
      obtain ⟨own, size, isPartition, isSize, ownGiven, sizeGiven⟩ :=
        named_of_validate valid unnamed
      refine ⟨own, size, isPartition, isSize, ownGiven, sizeGiven, ?_, ?_⟩
      · rw [Store.targetPartition, unnamed, isPartition]
        rfl
      · intro target words
        rw [Store.claimFor, unnamed, isSize]
        rfl
  · rintro ⟨plan, planned⟩
    obtain ⟨superNetwork, -, legal⟩ := legal_of_plan planned
    have reachable := legal.firewallReachable
    have enough := legal.enoughAddresses
    exact ⟨reachable, enough, Request.validate_eq_validateParts reachable enough⟩

/-- The gateway with as many addresses as networks that acquire none. -/
def Request.frugalGateway : Request where
  creator := "c"
  project := "x"
  role := .firewall
  partition := some "p"
  size := some "s"
  networks := [⟨"outside", some false⟩, ⟨"own", none⟩, ⟨"common", some false⟩]
  addresses := ["10.0.0.1", "192.0.2.7"]

/-- Both checks accept the frugal gateway, and in a partition without a super network its plan is
not refused for its structure. -/
theorem frugal_gateway_checks_agree :
    let s := (history Operation.gatewaySite).store
    Request.frugalGateway.validate = .ok () ∧
    (∀ reason, s.plan .frugalGateway "q" s.superNetworks ≠ .error (.invalidRequest reason)) ∧
    s.targetPartition .frugalGateway = .ok "p" ∧
    (∃ plan, s.plan .frugalGateway "p" s.superNetworks = .ok plan) ∧
    Request.frugalGateway.firewallReachable = true ∧
    Request.frugalGateway.enoughAddresses = true := by
  intro s
  have valid : Request.frugalGateway.validate = .ok () := by decide +kernel
  have planned : ∃ plan, s.plan .frugalGateway "p" s.superNetworks = .ok plan := by
    have succeeds : (s.plan .frugalGateway "p" s.superNetworks).isOk = true := by decide +kernel
    cases outcome : s.plan .frugalGateway "p" s.superNetworks with
    | ok plan => exact ⟨plan, rfl⟩
    | error e =>
        rw [outcome] at succeeds
        cases succeeds
  obtain ⟨elsewhere, -⟩ :=
    validation_agrees_with_planning s .frugalGateway "q" s.superNetworks
  obtain ⟨unblamed, read⟩ := elsewhere valid
  obtain ⟨own, size, isPartition, -, -, -, target, -⟩ := read rfl
  cases isPartition
  obtain ⟨-, accepted⟩ := validation_agrees_with_planning s .frugalGateway "p" s.superNetworks
  obtain ⟨reachable, enough, -⟩ := accepted planned
  exact ⟨valid, unblamed, target, planned, reachable, enough⟩

end MachinePool
