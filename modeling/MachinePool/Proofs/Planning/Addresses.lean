import MachinePool.Proofs.Planning.Stages
import MachinePool.Proofs.Table

/-!
What binding the given addresses makes of a plan.

Binding goes through the addresses in the order given, but what it does to a
planned network depends only on the leases out of that network
(`foldlM_bindAddress_eq_ok_iff`). It passes exactly when every address is leased
to the project out of a planned network, and afterwards a network acquires an
address exactly when it would have before and none was bound to it
(`PlannedNetwork.bindAll_auto`).
-/

namespace MachinePool

variable {s : Store} {project text id : String} {texts : List String} {plan plan' : Plan}
variable {p : PlannedNetwork}

/-! ### Named leases -/

/-- The address that a text spells and the lease it is stored under. -/
def Store.leaseNamed (s : Store) (text : String) : Option (Address × Lease) :=
  (Address.ofText? text).bind fun a => (s.lease? a).map fun l => (a, l)

/-- The leases that texts name out of a network, in the order of the texts. -/
def Store.leasesNamed (s : Store) (texts : List String) (network : String) :
    List (Address × Lease) :=
  (texts.filterMap s.leaseNamed).filter (·.2.network = network)

theorem Store.leaseNamed_eq_some_iff {a : Address} {l : Lease} :
    s.leaseNamed text = some (a, l) ↔ Address.ofText? text = some a ∧ s.lease? a = some l := by
  simp only [leaseNamed, Option.bind_eq_some_iff, Option.map_eq_some_iff, Prod.mk.injEq]
  constructor
  · rintro ⟨_, spelled, _, leased, rfl, rfl⟩
    exact ⟨spelled, leased⟩
  · rintro ⟨spelled, leased⟩
    exact ⟨a, spelled, l, leased, rfl, rfl⟩

/-- Some lease out of a network is named when one of the texts spells its address. -/
theorem Store.leasesNamed_ne_nil_iff :
    s.leasesNamed texts id ≠ [] ↔
      ∃ text ∈ texts, ∃ a l, Address.ofText? text = some a ∧ s.lease? a = some l ∧
        l.network = id := by
  rw [leasesNamed, Ne, List.filter_eq_nil_iff]
  simp only [not_forall, not_not, exists_prop, decide_eq_true_eq]
  constructor
  · rintro ⟨⟨a, l⟩, named, out⟩
    obtain ⟨text, mem, named⟩ := List.mem_filterMap.mp named
    obtain ⟨spelled, leased⟩ := leaseNamed_eq_some_iff.mp named
    exact ⟨text, mem, a, l, spelled, leased, out⟩
  · rintro ⟨text, mem, a, l, spelled, leased, out⟩
    have named : s.leaseNamed text = some (a, l) := leaseNamed_eq_some_iff.mpr ⟨spelled, leased⟩
    exact ⟨(a, l), List.mem_filterMap.mpr ⟨text, mem, named⟩, out⟩

/-! ### Binding leases to one network -/

def PlannedNetwork.bindAll (p : PlannedNetwork) (leases : List (Address × Lease)) :
    PlannedNetwork :=
  leases.foldl (fun p b => p.bindLease b.1 b.2) p

namespace PlannedNetwork

theorem bindLease_leases_ne_nil (p : PlannedNetwork) (a : Address) (l : Lease) :
    (p.bindLease a l).leases ≠ [] := by
  unfold bindLease
  simp only
  split
  · next known =>
      intro none
      simp [none] at known
  · simp

theorem bindAll_auto (p : PlannedNetwork) (leases : List (Address × Lease)) :
    (p.bindAll leases).auto = (p.auto && leases.isEmpty) := by
  induction leases generalizing p with
  | nil => simp [bindAll]
  | cons b leases ih =>
      change ((p.bindLease b.1 b.2).bindAll leases).auto = _
      rw [ih]
      simp [bindLease]

theorem bindAll_leases_eq_nil_iff (p : PlannedNetwork) (leases : List (Address × Lease)) :
    (p.bindAll leases).leases = [] ↔ p.leases = [] ∧ leases = [] := by
  induction leases generalizing p with
  | nil => simp [bindAll]
  | cons b leases ih =>
      change ((p.bindLease b.1 b.2).bindAll leases).leases = [] ↔ _
      rw [ih]
      simp [bindLease_leases_ne_nil]

end PlannedNetwork

/-! ### Binding addresses to a plan -/

/-- An address is bound when it is leased to the project out of a planned network. -/
theorem Store.bindAddress_eq_ok_iff :
    s.bindAddress project plan text = .ok plan' ↔
      ∃ a l planned, s.leaseNamed text = some (a, l) ∧ plan.get? l.network = some planned ∧
        l.project = project ∧ plan' = plan.insert l.network (planned.bindLease a l) := by
  simp only [bindAddress, bind_eq_ok_iff, leaseNamed_eq_some_iff, Request.readAddress]
  constructor
  · rintro ⟨a, spelled, bound⟩
    split at spelled
    · next named =>
        cases spelled
        split at bound
        · cases bound
        · next l leased =>
            split at bound
            · cases bound
            · next planned stored =>
                split at bound
                · cases bound
                · next own =>
                    cases bound
                    exact ⟨a, l, planned, ⟨named, leased⟩, stored, not_not.mp own, rfl⟩
    · cases spelled
  · rintro ⟨a, l, planned, ⟨named, leased⟩, stored, own, rfl⟩
    exact ⟨a, by simp [named], by simp [leased, stored, own]⟩

/-- The plan in which each network has got the leases that texts name out of it. -/
def Store.bindNamed (s : Store) (texts : List String) (plan : Plan) : Plan :=
  plan.mapKeyed fun id p => p.bindAll (s.leasesNamed texts id)

theorem Store.bindNamed_nil (s : Store) (plan : Plan) : s.bindNamed [] plan = plan := by
  refine Table.ext_get? fun id => ?_
  rw [bindNamed, Table.get?_mapKeyed]
  cases plan.get? id <;> rfl

/-- Binding the first address keeps the keys and leaves the others to be bound. -/
theorem Store.bindNamed_cons {a : Address} {l : Lease} (named : s.leaseNamed text = some (a, l))
    (stored : plan.get? l.network = some p) (texts : List String) :
    s.bindNamed texts (plan.insert l.network (p.bindLease a l)) =
      s.bindNamed (text :: texts) plan := by
  refine Table.ext_get? fun id => ?_
  rw [bindNamed, bindNamed, Table.get?_mapKeyed, Table.get?_mapKeyed, Table.get?_insert]
  by_cases here : id = l.network
  · subst here
    simp [stored, leasesNamed, named, PlannedNetwork.bindAll]
  · simp [here, leasesNamed, named, Ne.symm here]

theorem isSome_get?_insert {planned : PlannedNetwork} (stored : plan.get? id = some p)
    (asked : String) :
    ((plan.insert id planned).get? asked).isSome = (plan.get? asked).isSome := by
  rw [Table.get?_insert]
  by_cases same : asked = id
  · simp [same, stored]
  · simp [same]

/-- Binding passes exactly when every address is leased to the project out of a planned network, and
then each network has got the leases that were named out of it. -/
theorem Store.foldlM_bindAddress_eq_ok_iff :
    texts.foldlM (s.bindAddress project) plan = .ok plan' ↔
      (∀ text ∈ texts, ∃ a l, s.leaseNamed text = some (a, l) ∧
        (plan.get? l.network).isSome = true ∧ l.project = project) ∧
      plan' = s.bindNamed texts plan := by
  induction texts generalizing plan with
  | nil =>
      simp only [List.foldlM_nil, pure, Except.pure, Except.ok.injEq, List.not_mem_nil,
        false_implies, implies_true, true_and, bindNamed_nil]
      exact eq_comm
  | cons text texts ih =>
      simp only [List.foldlM_cons, bind_eq_ok_iff, bindAddress_eq_ok_iff, List.forall_mem_cons]
      constructor
      · rintro ⟨_, ⟨a, l, planned, named, stored, own, rfl⟩, rest⟩
        rw [ih, bindNamed_cons named stored] at rest
        simp only [isSome_get?_insert stored] at rest
        exact ⟨⟨⟨a, l, named, by simp [stored], own⟩, rest.1⟩, rest.2⟩
      · rintro ⟨⟨⟨a, l, named, isPlanned, own⟩, others⟩, rfl⟩
        obtain ⟨planned, stored⟩ := Option.isSome_iff_exists.mp isPlanned
        refine ⟨_, ⟨a, l, planned, named, stored, own, rfl⟩, ?_⟩
        rw [ih, bindNamed_cons named stored]
        simp only [isSome_get?_insert stored]
        exact ⟨others, trivial⟩

/-- Every network has an address or acquires one. -/
theorem checkAddressed_eq_ok_iff :
    checkAddressed plan = .ok () ↔
      ∀ id p, plan.get? id = some p → p.auto = true ∨ p.leases ≠ [] := by
  unfold checkAddressed
  have lacking : plan.entries.find? (fun e => !e.2.auto && e.2.leases.isEmpty) = none ↔
      ∀ id p, plan.get? id = some p → p.auto = true ∨ p.leases ≠ [] := by
    rw [List.find?_eq_none]
    constructor
    · intro none id p stored
      have := none (id, p) ((Table.mem_entries_iff plan).mpr stored)
      cases auto : p.auto <;> simp_all
    · rintro all ⟨id, p⟩ mem
      have := all id p ((Table.mem_entries_iff plan).mp mem)
      cases auto : p.auto <;> simp_all
  rw [← lacking]
  cases plan.entries.find? (fun e => !e.2.auto && e.2.leases.isEmpty) <;> simp

/-! ### The plan before binding -/

def FoundNetwork.planned (f : FoundNetwork) (hasUnshared : Bool) : PlannedNetwork where
  network := f.network
  type := f.attachable.type hasUnshared
  leases := []
  auto := f.request.wantsAuto

/-- Binding leaves a network short of an address when it acquires none and gets none. -/
theorem FoundNetwork.addressed_iff (f : FoundNetwork) (hasUnshared : Bool)
    (leases : List (Address × Lease)) :
    (((f.planned hasUnshared).bindAll leases).auto = true ∨
        ((f.planned hasUnshared).bindAll leases).leases ≠ []) ↔
      (f.request.autoAcquire = some false → leases ≠ []) := by
  rw [Ne, PlannedNetwork.bindAll_leases_eq_nil_iff, PlannedNetwork.bindAll_auto]
  cases leases with
  | nil =>
      cases wish : f.request.autoAcquire with
      | none => simp [planned, NetworkRequest.wantsAuto, wish]
      | some auto => cases auto <;> simp [planned, NetworkRequest.wantsAuto, wish]
  | cons first rest => simp

theorem get?_initialPlan_eq_some_iff {hasUnshared : Bool} {found : List FoundNetwork}
    (distinct : (found.map (·.request.network)).Nodup) :
    (initialPlan hasUnshared found).get? id = some p ↔
      ∃ f ∈ found, f.request.network = id ∧ f.planned hasUnshared = p := by
  have keys : ((found.map fun f => (f.request.network, f.planned hasUnshared)).map (·.1)).Nodup := by
    simpa [Function.comp_def] using distinct
  rw [show initialPlan hasUnshared found =
    Table.ofList (found.map fun f => (f.request.network, f.planned hasUnshared)) from rfl,
    Table.get?_ofList_eq_some_iff keys]
  simp [Prod.ext_iff]

/-! ### Refusals -/

theorem refusedFor_readAddress (mem : text ∈ texts) :
    RefusedFor texts (Request.readAddress text) := by
  unfold Request.readAddress
  cases spelled : Address.ofText? text with
  | some a => exact .ok a
  | none => exact .error ⟨text, mem, spelled, rfl⟩

theorem refusedFor_bindAddress (s : Store) (project : String) (plan : Plan) (mem : text ∈ texts) :
    RefusedFor texts (s.bindAddress project plan text) := by
  refine (refusedFor_readAddress mem).bind fun a => ?_
  split
  · exact .error rfl
  · split
    · exact .error rfl
    · split
      · exact .error rfl
      · exact .ok _

theorem refusedFor_checkAddressed (texts : List String) (plan : Plan) :
    RefusedFor texts (checkAddressed plan) := by
  unfold checkAddressed
  split
  · exact .error rfl
  · exact .ok _

/-- A plan is refused for the request's sake, and for its structure only where an address of the
request is illegal. -/
theorem refusedFor_plan (s : Store) (r : Request) (partition : String)
    (superNetworks : List Network) :
    RefusedFor r.addresses (s.plan r partition superNetworks) := by
  unfold Store.plan
  by_cases distinct : (r.networks.map (·.network)).Nodup
  · simp only [distinct, not_true_eq_false, if_false]
    split
    · exact .error rfl
    · refine (FailsOnly.mapM (refusedFor_findNetwork _ s) _).bind fun found => ?_
      refine (refusedFor_checkPrivateCounts _ _ _ _).bind fun _ => ?_
      refine (FailsOnly.forM (refusedFor_checkPrivateNetwork _ _ _ _) _).bind fun _ => ?_
      refine (FailsOnly.foldlM ?binding _).bind fun plan => ?_
      case binding =>
        intro plan text mem
        exact refusedFor_bindAddress s _ plan mem
      exact (refusedFor_checkAddressed _ plan).bind fun _ => .ok plan
  · simp only [distinct, not_false_eq_true, if_true]
    exact FailsOnly.error (e := AllocationError.duplicateNetwork) rfl

end MachinePool
