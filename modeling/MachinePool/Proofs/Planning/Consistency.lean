import MachinePool.Proofs.Journal.Reachable
import MachinePool.Proofs.Planning.Legality
import MachinePool.Proofs.Planning.Validation
import Mathlib.Algebra.BigOperators.Group.List.Basic

/-!
What every plan is like.

A plan of a valid request has the requested networks as they are stored, one of
them as the primary private one (`Plan.Typed`). Each given address is bound once,
to the network it is leased out of, and an address is acquired for exactly those
networks that are given none (`Plan.Addressed`).

* `validateAndPlan_consistent`: every plan of a request whose structure is valid
  is like this.
-/

namespace MachinePool

variable {s : Store} {r : Request} {partition id : String} {superNetworks : List Network}
variable {plan : Plan} {found : List FoundNetwork} {texts : List String} {p : PlannedNetwork}
variable {hasUnshared : Bool}

/-! ### Consistent plans -/

/-- What the networks of a plan are like. -/
structure Plan.Typed (plan : Plan) (s : Store) (r : Request) : Prop where
  /-- Exactly the requested networks are planned, as they are stored. -/
  keys : ∀ id, id ∈ plan.keys ↔ ∃ q ∈ r.networks, q.network = id
  stored : ∀ id p, plan.get? id = some p → s.network? id = some p.network ∧ p.network.id = id
  onePrimary : plan.values.countP (·.type.isPrimary) = 1
  /-- The primary network is unshared if an unshared one is requested. -/
  primary : ∀ p ∈ plan.values, p.type.isPrimary = true →
    (p.type = .privatePrimaryUnshared ↔ ∃ n ∈ s.requested r, n.isUnshared = true)
  /-- Then all shared ones are secondary. -/
  secondary : (∃ n ∈ s.requested r, n.isUnshared = true) →
    ∀ p ∈ plan.values, p.network.isShared = true → p.type = .privateSecondaryShared
  attachable : ∀ p ∈ plan.values, p.network.kind ≠ .privateSuper ∧ p.network.kind ≠ .underlay
  external : ∀ p ∈ plan.values, p.type = .external ↔ p.network.kind = .external
  /-- A machine gets one private network. -/
  machine : r.role = .machine → plan.values.countP (·.type.isPrivate) = 1

/-- The leases of the addresses that texts spell, in the order of the texts. -/
def Store.GivenLeases (s : Store) (texts : List String) (leases : List Lease) : Prop :=
  List.Forall₂ (fun text l => ∃ a, Address.ofText? text = some a ∧ s.lease? a = some l ∧
    l.address = a) texts leases

/-- What the addresses of a plan are like when the given ones are leased by these leases. -/
structure Plan.Addressed (plan : Plan) (project : String) (leases : List Lease) : Prop where
  /-- A network has the given addresses that are leased out of it, in the order given. -/
  bound : ∀ id p, plan.get? id = some p → p.leases = leases.filter (·.network = id)
  /-- A given address is bound to the network it is leased out of, once, and to no other. -/
  boundOnce : ∀ l ∈ leases, l.network ∈ plan.keys ∧ ∀ id p, plan.get? id = some p →
    (p.leases.map (·.address)).count l.address = if l.network = id then 1 else 0
  total : (plan.values.map (·.leases.length)).sum = leases.length
  owned : ∀ p ∈ plan.values, ∀ l ∈ p.leases, l.project = project
  /-- Whatever was requested, an address is acquired exactly where none is given. -/
  auto : ∀ p ∈ plan.values, p.auto = true ↔ p.leases = []

/-! ### Types -/

/-- The primary networks are the unshared ones, and the shared ones where there is no unshared one. -/
theorem countP_isPrimary (found : List FoundNetwork) (hasUnshared : Bool) :
    found.countP (fun f => (f.attachable.type hasUnshared).isPrimary) =
      found.countP (·.attachable = .tenant false) +
        if hasUnshared then 0 else found.countP (·.attachable = .tenant true) := by
  induction found with
  | nil => cases hasUnshared <;> rfl
  | cons f found ih =>
      simp only [List.countP_cons, ih]
      cases hasUnshared <;> cases f.attachable with
      | external => simp [Attachable.type, AttachmentType.isPrimary]
      | tenant shared => cases shared <;> simp [Attachable.type, AttachmentType.isPrimary] <;> omega

/-- The counting rules leave one primary network. -/
theorem one_primary {role : Role} {unshared shared : Nat}
    (counts : checkPrivateCounts role unshared shared = .ok ()) :
    (unshared + if decide (0 < unshared) = true then 0 else shared) = 1 := by
  obtain ⟨some, one, machine, firewall⟩ := checkPrivateCounts_eq_ok_iff.mp counts
  by_cases hasUnshared : 0 < unshared
  · simp only [hasUnshared, decide_true, if_true]
    omega
  · simp only [hasUnshared, decide_false, Bool.false_eq_true, if_false]
    cases role with
    | machine => exact machine rfl
    | firewall =>
        have few := firewall rfl (by omega)
        omega

/-- The private types are those of the unshared and the shared networks. -/
theorem countP_isPrivate_type (found : List FoundNetwork) (hasUnshared : Bool) :
    found.countP (fun f => (f.attachable.type hasUnshared).isPrivate) =
      found.countP (·.attachable = .tenant false) +
        found.countP (·.attachable = .tenant true) := by
  induction found with
  | nil => rfl
  | cons f found ih =>
      simp only [List.countP_cons, ih]
      cases hasUnshared <;> cases f.attachable with
      | external => simp [Attachable.type, AttachmentType.isPrivate]
      | tenant shared => cases shared <;> simp [Attachable.type, AttachmentType.isPrivate] <;> omega

section Attachable

variable {n : Network} {a : Attachable} (attachable : Attachable.of n = .ok a)

include attachable

/-- External networks, and only these, are attached as such. -/
theorem type_eq_external_iff : a.type hasUnshared = .external ↔ n.kind = .external := by
  rcases Attachable.of_eq_ok_iff.mp attachable with ⟨kind, rfl⟩ | ⟨parent, shared, kind, rfl⟩
  · simp [kind, Attachable.type]
  · cases shared <;> cases hasUnshared <;> simp [kind, Attachable.type]

/-- A shared network is secondary beside an unshared one. -/
theorem type_of_isShared (shared : n.isShared = true) (unshared : hasUnshared = true) :
    a.type hasUnshared = .privateSecondaryShared := by
  rcases Attachable.of_eq_ok_iff.mp attachable with ⟨kind, rfl⟩ | ⟨parent, _, kind, rfl⟩
  · simp [Network.isShared, kind] at shared
  · simp only [Network.isShared, kind] at shared
    simp [Attachable.type, shared, unshared]

/-- Super networks and underlays are not attachable. -/
theorem kind_of_attachable : n.kind ≠ .privateSuper ∧ n.kind ≠ .underlay := by
  rcases Attachable.of_eq_ok_iff.mp attachable with ⟨kind, -⟩ | ⟨parent, shared, kind, -⟩
  · simp [kind]
  · simp [kind]

end Attachable

/-- A primary network is unshared exactly when there is an unshared network. -/
theorem type_eq_unshared_iff {a : Attachable} (known : a = .tenant false → hasUnshared = true)
    (primary : (a.type hasUnshared).isPrimary = true) :
    a.type hasUnshared = .privatePrimaryUnshared ↔ hasUnshared = true := by
  cases a with
  | external => cases primary
  | tenant shared =>
      cases shared with
      | false => simp [Attachable.type, known rfl]
      | true =>
          cases hasUnshared with
          | false => simp [Attachable.type]
          | true => cases primary

/-! ### Bound leases -/

namespace PlannedNetwork

@[simp] theorem bindAll_network (p : PlannedNetwork) (leases : List (Address × Lease)) :
    (p.bindAll leases).network = p.network := by
  induction leases generalizing p with
  | nil => rfl
  | cons b leases ih => exact ih (p.bindLease b.1 b.2)

@[simp] theorem bindAll_type (p : PlannedNetwork) (leases : List (Address × Lease)) :
    (p.bindAll leases).type = p.type := by
  induction leases generalizing p with
  | nil => rfl
  | cons b leases ih => exact ih (p.bindLease b.1 b.2)

/-- Leases of addresses that are all different are all bound, in order. -/
theorem bindAll_leases {p : PlannedNetwork} {leases : List (Address × Lease)}
    (genuine : ∀ b ∈ leases, b.2.address = b.1)
    (distinct : (p.leases.map (·.address) ++ leases.map (·.1)).Nodup) :
    (p.bindAll leases).leases = p.leases ++ leases.map (·.2) := by
  induction leases generalizing p with
  | nil => simp [bindAll]
  | cons b leases ih =>
      obtain ⟨here, others⟩ := List.forall_mem_cons.mp genuine
      have fresh : b.1 ∉ p.leases.map (·.address) := fun mem =>
        (List.nodup_append.mp distinct).2.2 b.1 mem b.1 (by simp) rfl
      have unknown : p.leases.any (·.address = b.1) = false := by
        simpa using fresh
      have bound : (p.bindLease b.1 b.2).leases = p.leases ++ [b.2] := by
        simp [bindLease, unknown]
      have next := ih (p := p.bindLease b.1 b.2) others (by simpa [bound, here] using distinct)
      rw [bound] at next
      simpa [bindAll] using next

end PlannedNetwork

/-! ### Named leases -/

/-- The leases that texts name, out of whatever network, in the order of the texts. -/
def Store.allLeasesNamed (s : Store) (texts : List String) : List Lease :=
  (texts.filterMap s.leaseNamed).map (·.2)

theorem Store.mem_allLeasesNamed_iff {l : Lease} :
    l ∈ s.allLeasesNamed texts ↔ ∃ text ∈ texts, ∃ a, s.leaseNamed text = some (a, l) := by
  simp only [allLeasesNamed, List.mem_map, List.mem_filterMap]
  constructor
  · rintro ⟨⟨a, _⟩, ⟨text, given, named⟩, rfl⟩
    exact ⟨text, given, a, named⟩
  · rintro ⟨text, given, a, named⟩
    exact ⟨(a, l), ⟨text, given, named⟩, rfl⟩

section Genuine

variable (reached : s.Reachable)

include reached

/-- In a reachable store a text names a lease of the address it spells. -/
theorem Store.Reachable.genuine : ∀ b ∈ texts.filterMap s.leaseNamed, b.2.address = b.1 := by
  rintro ⟨a, l⟩ mem
  obtain ⟨text, -, named⟩ := List.mem_filterMap.mp mem
  exact reached.lease_address (leaseNamed_eq_some_iff.mp named).2

/-- What the texts name is what is given by them, if each of them names a lease. -/
theorem Store.Reachable.givenLeases
    (all : ∀ text ∈ texts, ∃ a l, s.leaseNamed text = some (a, l)) :
    s.GivenLeases texts (s.allLeasesNamed texts) := by
  induction texts with
  | nil => exact .nil
  | cons text texts ih =>
      obtain ⟨⟨a, l, named⟩, others⟩ := List.forall_mem_cons.mp all
      obtain ⟨spelled, stored⟩ := leaseNamed_eq_some_iff.mp named
      rw [allLeasesNamed, List.filterMap_cons_some named]
      exact .cons ⟨a, spelled, stored, reached.lease_address stored⟩ (ih others)

/-- The addresses of the named leases are the ones that the texts spell. -/
theorem Store.Reachable.map_address_allLeasesNamed
    (all : ∀ text ∈ texts, ∃ a l, s.leaseNamed text = some (a, l)) :
    (s.allLeasesNamed texts).map (·.address) = texts.filterMap Address.ofText? := by
  have addresses : (s.allLeasesNamed texts).map (·.address) =
      (texts.filterMap s.leaseNamed).map (·.1) := by
    rw [allLeasesNamed, List.map_map]
    exact List.map_congr_left reached.genuine
  rw [addresses, List.map_filterMap]
  refine List.filterMap_congr fun text mem => ?_
  obtain ⟨a, l, named⟩ := all text mem
  rw [named, (leaseNamed_eq_some_iff.mp named).1]
  rfl

/-- Where the addresses are distinct, a network is bound to the leases out of it in their order. -/
theorem Store.Reachable.leases_bindAll
    (distinct : ((s.allLeasesNamed texts).map (·.address)).Nodup) {f : FoundNetwork} :
    ((f.planned hasUnshared).bindAll (s.leasesNamed texts id)).leases =
      (s.allLeasesNamed texts).filter (·.network = id) := by
  have part : (s.leasesNamed texts id).Sublist (texts.filterMap s.leaseNamed) :=
    List.filter_sublist
  have genuine : ∀ b ∈ s.leasesNamed texts id, b.2.address = b.1 := fun b mem =>
    reached.genuine b (part.subset mem)
  have addresses : ((s.leasesNamed texts id).map (·.1)).Nodup := by
    rw [← List.map_congr_left genuine, ← Function.comp_def, ← List.map_map]
    exact distinct.sublist ((part.map _).map _)
  have bound := PlannedNetwork.bindAll_leases (p := f.planned hasUnshared) genuine
    (by simpa [FoundNetwork.planned] using addresses)
  simpa [FoundNetwork.planned, leasesNamed, allLeasesNamed, List.filter_map, Function.comp_def]
    using bound

end Genuine

/-! ### The planned networks -/

section Planned

variable (ids : (found.map (·.request.network)).Nodup)

include ids

/-- A planned network is a found one with the leases named out of it. -/
theorem get?_bindNamed_eq_some_iff :
    (s.bindNamed texts (initialPlan hasUnshared found)).get? id = some p ↔
      ∃ f ∈ found, f.request.network = id ∧
        (f.planned hasUnshared).bindAll (s.leasesNamed texts id) = p := by
  rw [Store.bindNamed, Table.get?_mapKeyed, Option.map_eq_some_iff]
  simp only [get?_initialPlan_eq_some_iff ids]
  constructor
  · rintro ⟨_, ⟨f, mem, same, rfl⟩, bound⟩
    exact ⟨f, mem, same, bound⟩
  · rintro ⟨f, mem, same, bound⟩
    exact ⟨_, ⟨f, mem, same, rfl⟩, bound⟩

/-- The planned networks are the found ones. -/
theorem mem_keys_bindNamed_iff :
    id ∈ (s.bindNamed texts (initialPlan hasUnshared found)).keys ↔
      id ∈ found.map (·.request.network) := by
  rw [Table.mem_keys_iff, Option.isSome_iff_exists, List.mem_map]
  simp only [get?_bindNamed_eq_some_iff ids]
  constructor
  · rintro ⟨_, f, mem, same, -⟩
    exact ⟨f, mem, same⟩
  · rintro ⟨f, mem, same⟩
    exact ⟨_, f, mem, same, rfl⟩

/-- The plan lists the networks that were found, each with what is bound to it. -/
theorem perm_values_bindNamed :
    (s.bindNamed texts (initialPlan hasUnshared found)).values.Perm
      (found.map fun f =>
        (f.planned hasUnshared).bindAll (s.leasesNamed texts f.request.network)) := by
  have keys : ((found.map fun f => (f.request.network, f.planned hasUnshared)).map (·.1)).Nodup := by
    simpa [Function.comp_def] using ids
  have pairs := (Table.perm_entries_ofList keys).map fun e =>
    e.2.bindAll (s.leasesNamed texts e.1)
  simpa [Store.bindNamed, Table.mapKeyed, Table.values, initialPlan, FoundNetwork.planned,
    Function.comp_def] using pairs

theorem countP_values_bindNamed (test : AttachmentType → Bool) :
    (s.bindNamed texts (initialPlan hasUnshared found)).values.countP (test ·.type) =
      found.countP fun f => test (f.attachable.type hasUnshared) := by
  rw [(perm_values_bindNamed ids).countP_eq, List.countP_map]
  simp [Function.comp_def, FoundNetwork.planned]

/-- A planned network is one that was found, with what is bound to it. -/
theorem exists_found_of_mem_values
    (mem : p ∈ (s.bindNamed texts (initialPlan hasUnshared found)).values) :
    ∃ f ∈ found, p = (f.planned hasUnshared).bindAll (s.leasesNamed texts f.request.network) := by
  obtain ⟨f, among, rfl⟩ := List.mem_map.mp ((perm_values_bindNamed ids).mem_iff.mp mem)
  exact ⟨f, among, rfl⟩

end Planned

/-! ### The networks of a plan -/

/-- Whatever addresses are bound, the networks of a plan are the requested ones with their types. -/
theorem typed_bindNamed (reached : s.Reachable) (distinct : (r.networks.map (·.network)).Nodup)
    (all : r.networksById.mapM s.findNetwork = .ok found)
    (counts : checkPrivateCounts r.role (found.countP (·.attachable = .tenant false))
      (found.countP (·.attachable = .tenant true)) = .ok ()) (texts : List String) :
    (s.bindNamed texts (initialPlan (0 < found.countP (·.attachable = .tenant false))
      found)).Typed s r := by
  have ids := nodup_found distinct all
  obtain ⟨-, stored⟩ := Store.mapM_findNetwork_eq_ok_iff.mp all
  have single := one_primary counts
  obtain ⟨-, -, machine, -⟩ := checkPrivateCounts_eq_ok_iff.mp counts
  generalize unshared : decide (0 < found.countP (·.attachable = .tenant false)) = hasUnshared at *
  have known : hasUnshared = true ↔ ∃ n ∈ s.requested r, n.isUnshared = true := by
    rw [← unshared, decide_eq_true_eq, countP_unshared distinct all, List.countP_pos_iff]
  refine ⟨?keys, ?stored, ?onePrimary, ?primary, ?secondary, ?attachable, ?external, ?machine⟩
  case keys =>
    intro id
    rw [mem_keys_bindNamed_iff ids, List.mem_map]
    simp only [← mem_found_iff distinct all]
    constructor
    · rintro ⟨f, mem, same⟩
      exact ⟨f.request, ⟨f, mem, rfl⟩, same⟩
    · rintro ⟨_, ⟨f, mem, rfl⟩, same⟩
      exact ⟨f, mem, same⟩
  case stored =>
    intro id p planned
    obtain ⟨f, mem, rfl, rfl⟩ := (get?_bindNamed_eq_some_iff ids).mp planned
    rw [PlannedNetwork.bindAll_network]
    exact ⟨(stored f mem).1, reached.keyed.network _ _ (stored f mem).1⟩
  case onePrimary =>
    rw [countP_values_bindNamed ids, countP_isPrimary]
    exact single
  case primary =>
    intro p mem primary
    obtain ⟨f, among, rfl⟩ := exists_found_of_mem_values ids mem
    rw [PlannedNetwork.bindAll_type] at primary ⊢
    rw [← known]
    refine type_eq_unshared_iff (fun tenant => ?_) primary
    rw [← unshared, decide_eq_true_eq, List.countP_pos_iff]
    exact ⟨f, among, decide_eq_true tenant⟩
  case secondary =>
    intro someUnshared p mem shared
    obtain ⟨f, among, rfl⟩ := exists_found_of_mem_values ids mem
    rw [PlannedNetwork.bindAll_network] at shared
    rw [PlannedNetwork.bindAll_type]
    exact type_of_isShared (stored f among).2 shared (known.mpr someUnshared)
  case attachable =>
    intro p mem
    obtain ⟨f, among, rfl⟩ := exists_found_of_mem_values ids mem
    rw [PlannedNetwork.bindAll_network]
    exact kind_of_attachable (stored f among).2
  case external =>
    intro p mem
    obtain ⟨f, among, rfl⟩ := exists_found_of_mem_values ids mem
    rw [PlannedNetwork.bindAll_network, PlannedNetwork.bindAll_type]
    exact type_eq_external_iff (stored f among).2
  case machine =>
    intro role
    rw [countP_values_bindNamed ids, countP_isPrivate_type]
    exact machine role

/-! ### The addresses of a plan -/

/-- Lists cut by a key, over all keys, are as long as the whole list. -/
theorem sum_length_filter {α : Type} {key : α → String} {keys : List String} {xs : List α}
    (distinct : keys.Nodup) (covered : ∀ x ∈ xs, key x ∈ keys) :
    (keys.map fun k => (xs.filter (key · = k)).length).sum = xs.length := by
  induction xs with
  | nil => simp
  | cons x xs ih =>
      obtain ⟨here, others⟩ := List.forall_mem_cons.mp covered
      have one : (keys.map fun k => if key x = k then 1 else 0).sum = 1 := by
        rw [List.sum_map_eq_nsmul_single (key x) _ fun k other _ => if_neg (Ne.symm other),
          List.count_eq_one_of_mem distinct here]
        simp
      have cut : ∀ k, ((x :: xs).filter (key · = k)).length =
          (if key x = k then 1 else 0) + (xs.filter (key · = k)).length := by
        intro k
        by_cases same : key x = k
        · simp [same, Nat.add_comm]
        · simp [same]
      simp only [cut, List.sum_map_add, one, ih others, List.length_cons]
      omega

/-- Among leases of distinct addresses, one is found once among those out of its network. -/
theorem count_address_filter {leases : List Lease} {l : Lease}
    (distinct : (leases.map (·.address)).Nodup) (mem : l ∈ leases) :
    ((leases.filter (·.network = id)).map (·.address)).count l.address =
      if l.network = id then 1 else 0 := by
  have part : ((leases.filter (·.network = id)).map (·.address)).Sublist (leases.map (·.address)) :=
    List.filter_sublist.map _
  by_cases here : l.network = id
  · rw [if_pos here]
    refine List.count_eq_one_of_mem (distinct.sublist part) (List.mem_map.mpr ⟨l, ?_, rfl⟩)
    exact List.mem_filter.mpr ⟨mem, decide_eq_true here⟩
  · rw [if_neg here, List.count_eq_zero]
    intro again
    obtain ⟨other, among, same⟩ := List.mem_map.mp again
    obtain ⟨mem', there⟩ := List.mem_filter.mp among
    cases List.inj_on_of_nodup_map distinct mem' mem same
    exact here (of_decide_eq_true there)

section Leased

variable {project : String} (ids : (found.map (·.request.network)).Nodup)
variable (leased : ∀ text ∈ texts, ∃ a l, s.leaseNamed text = some (a, l) ∧
  ((initialPlan hasUnshared found).get? l.network).isSome = true ∧ l.project = project)

include ids leased

/-- The leases that are named belong to the project and to networks that were found. -/
theorem placed_of_leased {l : Lease} (mem : l ∈ s.allLeasesNamed texts) :
    l.network ∈ found.map (·.request.network) ∧ l.project = project := by
  obtain ⟨text, given, a, named⟩ := Store.mem_allLeasesNamed_iff.mp mem
  obtain ⟨a', l', named', isPlanned, own⟩ := leased text given
  cases named.symm.trans named'
  obtain ⟨p, planned⟩ := Option.isSome_iff_exists.mp isPlanned
  obtain ⟨f, among, same, -⟩ := (get?_initialPlan_eq_some_iff ids).mp planned
  exact ⟨List.mem_map.mpr ⟨f, among, same⟩, own⟩

/-- Where every text spells another address, and one that is leased to the project out of a planned
network, the leases are bound as they are given. -/
theorem addressed_bindNamed (reached : s.Reachable)
    (distinct : ((s.allLeasesNamed texts).map (·.address)).Nodup)
    (addressed : checkAddressed (s.bindNamed texts (initialPlan hasUnshared found)) = .ok ()) :
    (s.bindNamed texts (initialPlan hasUnshared found)).Addressed project
      (s.allLeasesNamed texts) := by
  have placed : ∀ l ∈ s.allLeasesNamed texts, _ := fun l => placed_of_leased ids leased
  have bound : ∀ f : FoundNetwork, ((f.planned hasUnshared).bindAll
      (s.leasesNamed texts f.request.network)).leases =
        (s.allLeasesNamed texts).filter (·.network = f.request.network) := fun f =>
    reached.leases_bindAll distinct
  refine ⟨?bound, ?boundOnce, ?total, ?owned, ?auto⟩
  case bound =>
    intro id p planned
    obtain ⟨f, -, rfl, rfl⟩ := (get?_bindNamed_eq_some_iff ids).mp planned
    exact bound f
  case boundOnce =>
    intro l mem
    refine ⟨(mem_keys_bindNamed_iff ids).mpr (placed l mem).1, fun id p planned => ?_⟩
    obtain ⟨f, -, rfl, rfl⟩ := (get?_bindNamed_eq_some_iff ids).mp planned
    rw [bound f]
    exact count_address_filter distinct mem
  case total =>
    have listed : (s.bindNamed texts (initialPlan hasUnshared found)).values.Perm _ :=
      perm_values_bindNamed ids
    rw [(listed.map (·.leases.length)).sum_eq, List.map_map]
    have cut := sum_length_filter ids fun l mem => (placed l mem).1
    simpa [Function.comp_def, bound] using cut
  case owned =>
    intro p mem l among
    obtain ⟨f, -, rfl⟩ := exists_found_of_mem_values ids mem
    rw [bound f] at among
    exact (placed l (List.mem_filter.mp among).1).2
  case auto =>
    intro p mem
    obtain ⟨id, planned⟩ := (Table.mem_values_iff _).mp mem
    have fed := checkAddressed_eq_ok_iff.mp addressed id p planned
    obtain ⟨f, -, -, rfl⟩ := (get?_bindNamed_eq_some_iff ids).mp planned
    constructor
    · intro auto
      rw [PlannedNetwork.bindAll_auto, Bool.and_eq_true, List.isEmpty_iff] at auto
      exact (PlannedNetwork.bindAll_leases_eq_nil_iff _ _).mpr ⟨rfl, auto.2⟩
    · intro none
      exact fed.resolve_right (not_not.mpr none)

end Leased

/-! ### Every plan -/

/-- Whatever texts its addresses are given by, a plan has the requested networks with their types. -/
theorem Store.Reachable.typed_plan (reached : s.Reachable)
    (planned : s.plan r partition superNetworks = .ok plan) : plan.Typed s r := by
  obtain ⟨distinct, _, found, -, all, counts, -, binding, -⟩ := Store.plan_eq_ok_iff.mp planned
  obtain ⟨-, rfl⟩ := Store.foldlM_bindAddress_eq_ok_iff.mp binding
  exact typed_bindNamed reached distinct all counts r.addresses

/-- The plan of a request whose structure is valid has exactly the requested networks, one of them
as the primary one, and each given address once, at the network it is leased out of. -/
theorem validateAndPlan_consistent {s : Store} (reached : s.Reachable) {r : Request}
    {partition : String} {superNetworks : List Network} {plan : Plan}
    (planned : s.validateAndPlan r partition superNetworks = .ok plan) :
    plan.Typed s r ∧ ∃ leases, s.GivenLeases r.addresses leases ∧ plan.Addressed r.project leases := by
  obtain ⟨_, valid, planned⟩ := bind_eq_ok_iff.mp planned
  obtain ⟨-, -, -, -, spelled, -⟩ := Request.validate_eq_ok_iff.mp valid
  obtain ⟨-, differ, -⟩ := Request.checkAddresses_eq_ok_iff.mp spelled
  have typed := reached.typed_plan planned
  obtain ⟨distinct, _, found, -, all, -, -, binding, addressed⟩ :=
    Store.plan_eq_ok_iff.mp planned
  obtain ⟨leased, rfl⟩ := Store.foldlM_bindAddress_eq_ok_iff.mp binding
  have named : ∀ text ∈ r.addresses, ∃ a l, s.leaseNamed text = some (a, l) := by
    intro text mem
    obtain ⟨a, l, named, -⟩ := leased text mem
    exact ⟨a, l, named⟩
  rw [← reached.map_address_allLeasesNamed named] at differ
  exact ⟨typed, s.allLeasesNamed r.addresses, reached.givenLeases named,
    addressed_bindNamed (nodup_found distinct all) leased reached differ addressed⟩

/-- The shared network of the gateway is secondary and acquires no address, as one is given. -/
theorem gateway_plan_consistent :
    let s := (history Operation.gatewaySite).store
    s.Reachable ∧ s.validateAndPlan .gateway "p" s.superNetworks = .ok .gateway ∧
      Plan.gateway.Typed s .gateway ∧
      ∃ leases, s.GivenLeases ["192.0.2.8", "10.0.0.1", "192.0.2.7"] leases ∧
        Plan.gateway.Addressed "x" leases := by
  intro s
  have reached : s.Reachable := Store.reachable_history _
  have planned : s.validateAndPlan .gateway "p" s.superNetworks = .ok .gateway := by
    decide +kernel
  exact ⟨reached, planned, validateAndPlan_consistent reached planned⟩

end MachinePool
