import MachinePool.Proofs.FirstFault
import MachinePool.Proofs.Planning.Consistency

/-!
What a request that cannot be planned is refused for.

A request may have any number of faults. Each stage of a plan has its own
(`Store.Fault`), said of the request and the stored records alone and not of what
earlier stages make of them: a stage that looks at networks blames the least
faulty id, and the stage that looks at the addresses blames the first faulty one.
The request is refused for the fault of the earliest stage that has one.

* `refused_for_earliest_fault`: exactly this fault is reported.
-/

namespace MachinePool

inductive PlanStage where
  /-- The networks are distinct. -/
  | distinctness
  /-- The partition has a private super network. -/
  | superNetwork
  /-- Every network is known and may be attached. -/
  | lookUp
  /-- The private networks are few enough for the role. -/
  | counting
  /-- The private networks lie in the partition and are shared or owned. -/
  | placing
  /-- The addresses belong to requested networks and to the project. -/
  | addressing
  /-- Every network has an address or acquires one. -/
  | acquiring
  deriving DecidableEq, Repr

def PlanStage.all : List PlanStage :=
  [distinctness, superNetwork, lookUp, counting, placing, addressing, acquiring]

/-! ### Faults -/

/-- A network that is not known or may not be attached. -/
inductive Store.LookUpFault (s : Store) (id : String) : AllocationError → Prop where
  | unknown : s.network? id = none → s.LookUpFault id (.networkNotFound id)
  | forbidden {n : Network} : s.network? id = some n → n.kind = .privateSuper ∨ n.kind = .underlay →
      s.LookUpFault id (.forbiddenNetworkKind id n.kind)

/-- Private networks that do not fit a role. The role counts only where at most one is unshared. -/
inductive CountFault (role : Role) (unshared shared : Nat) : AllocationError → Prop where
  | none : unshared + shared = 0 → CountFault role unshared shared .noPrivateNetwork
  | primaries : 1 < unshared → CountFault role unshared shared .multiplePrimaryNetworks
  | machine : unshared ≤ 1 → role = .machine → 1 < unshared + shared →
      CountFault role unshared shared .multiplePrivateNetworks
  | firewall : role = .firewall → unshared = 0 → 1 < shared →
      CountFault role unshared shared .multipleSharedNetworks

/-- A private network of somebody else, or else one outside the partition's super network. -/
inductive Store.PlaceFault (s : Store) (project partition : String) (superNetworks : List Network)
    (id : String) : AllocationError → Prop where
  | foreign {n : Network} : s.network? id = some n → n.isUnshared = true →
      n.project ≠ some project →
      s.PlaceFault project partition superNetworks id (.foreignPrivateNetwork id)
  | elsewhere {n : Network} : s.network? id = some n → n.isPrivate = true →
      (n.isUnshared = true → n.project = some project) →
      ¬ (n.partition = some partition ∧ ∃ superNetwork shared,
        IsSuperNetwork superNetworks partition superNetwork ∧
          n.kind = .tenant superNetwork.id shared) →
      s.PlaceFault project partition superNetworks id (.privateNetworkElsewhere id)

/-- A text that is no address, or one that is not leased to the project out of a requested
network. -/
inductive Store.AddressFault (s : Store) (r : Request) (text : String) : AllocationError → Prop where
  | illegal : Address.ofText? text = none →
      s.AddressFault r text (.invalidRequest (Request.illegalAddressMessage text))
  | unknown {a : Address} : Address.ofText? text = some a → s.lease? a = none →
      s.AddressFault r text (.leaseNotFound a)
  | outside {a : Address} {l : Lease} : Address.ofText? text = some a → s.lease? a = some l →
      (∀ q ∈ r.networks, q.network ≠ l.network) →
      s.AddressFault r text (.addressOutsideNetworks a)
  | foreign {a : Address} {l : Lease} : Address.ofText? text = some a → s.lease? a = some l →
      (∃ q ∈ r.networks, q.network = l.network) → l.project ≠ r.project →
      s.AddressFault r text (.foreignAddress a l.project r.project)

/-- A network that acquires no address and is given none. -/
inductive Store.AcquisitionFault (s : Store) (texts : List String) (q : NetworkRequest) :
    AllocationError → Prop where
  | missing {n : Network} : s.network? q.network = some n → q.autoAcquire = some false →
      (∀ text ∈ texts, ∀ a l, Address.ofText? text = some a → s.lease? a = some l →
        l.network ≠ q.network) →
      s.AcquisitionFault texts q (.missingAddress q.network n.kind)

def Store.Fault (s : Store) (r : Request) (partition : String) (superNetworks : List Network) :
    PlanStage → AllocationError → Prop
  | .distinctness, e => ¬ (r.networks.map (·.network)).Nodup ∧ e = .duplicateNetwork
  | .superNetwork, e =>
    (∀ n ∈ superNetworks, ¬ (n.kind = .privateSuper ∧ n.partition = some partition)) ∧
      e = .noPrivateSuperNetwork partition
  | .lookUp, e => LeastFault (·.network) (fun q => s.LookUpFault q.network) r.networks e
  | .counting, e =>
    CountFault r.role ((s.requested r).countP (·.isUnshared)) ((s.requested r).countP (·.isShared)) e
  | .placing, e =>
    LeastFault (·.network) (fun q => s.PlaceFault r.project partition superNetworks q.network)
      r.networks e
  | .addressing, e => FirstFault (s.AddressFault r) r.addresses e
  | .acquiring, e => LeastFault (·.network) (s.AcquisitionFault r.addresses) r.networks e

variable {s : Store} {r : Request} {partition : String} {superNetworks : List Network}
variable {superNetwork : Network} {found : List FoundNetwork} {e : AllocationError}

/-! ### The networks in the order of their ids -/

/-- Distinct networks come in ascending order. -/
theorem Request.ascending_networksById (distinct : (r.networks.map (·.network)).Nodup) :
    r.networksById.Pairwise fun q q' => q.network < q'.network := by
  have keys : ((r.networks.map fun q => (q.network, q)).map (·.1)).Nodup := by
    simpa [Function.comp_def] using distinct
  have own : ∀ entry ∈ (Table.ofList (r.networks.map fun q => (q.network, q))).entries,
      entry.1 = entry.2.network := by
    rintro ⟨id, q⟩ mem
    rw [Table.mem_entries_iff, Table.get?_ofList_eq_some_iff keys] at mem
    obtain ⟨_, -, ⟨⟩⟩ := List.mem_map.mp mem
    rfl
  refine List.pairwise_map.mpr ((Table.sorted _).imp_of_mem fun {a b} memA memB below => ?_)
  rw [← own a memA, ← own b memB]
  exact below

/-- Where the networks are looked at by id, the least faulty one is blamed. -/
theorem firstFault_networksById_iff (distinct : (r.networks.map (·.network)).Nodup)
    {fault : NetworkRequest → AllocationError → Prop} :
    FirstFault fault r.networksById e ↔ LeastFault (·.network) fault r.networks e := by
  rw [firstFault_iff_least (Request.ascending_networksById distinct)]
  exact leastFault_congr fun id e => by simp only [(Request.perm_networksById distinct).mem_iff]

/-! ### Looking up and counting -/

/-- A network is not found for what is wrong with it in the store. -/
theorem Store.findNetwork_eq_error_iff (keyed : s.Keyed) {q : NetworkRequest} :
    s.findNetwork q = .error e ↔ s.LookUpFault q.network e := by
  unfold findNetwork
  cases stored : s.network? q.network with
  | none =>
      constructor
      · rintro ⟨⟩
        exact .unknown stored
      · rintro (_ | ⟨known, -⟩)
        · rfl
        · rw [stored] at known
          cases known
  | some n =>
      have own : n.id = q.network := keyed.network _ _ stored
      have fault : s.LookUpFault q.network e ↔ (n.kind = .privateSuper ∨ n.kind = .underlay) ∧
          e = .forbiddenNetworkKind q.network n.kind := by
        constructor
        · rintro (unknown | ⟨known, kind⟩)
          · rw [stored] at unknown
            cases unknown
          · cases stored.symm.trans known
            exact ⟨kind, rfl⟩
        · rintro ⟨kind, rfl⟩
          exact .forbidden stored kind
      rw [fault]
      cases kind : n.kind <;> simp [Attachable.of, kind, own, Except.map, eq_comm]

/-- Numbers of private networks are refused for the rule they break. -/
theorem checkPrivateCounts_eq_error_iff {role : Role} {unshared shared : Nat} :
    checkPrivateCounts role unshared shared = .error e ↔ CountFault role unshared shared e := by
  constructor
  · intro failed
    cases role with
    | machine =>
        simp only [checkPrivateCounts] at failed
        split_ifs at failed with none primaries many <;> cases failed
        · exact .none none
        · exact .primaries primaries
        · exact .machine (by omega) rfl many
    | firewall =>
        simp only [checkPrivateCounts] at failed
        split_ifs at failed with none primaries many <;> cases failed
        · exact .none none
        · exact .primaries primaries
        · exact .firewall rfl many.1 many.2
  · rintro (none | primaries | ⟨single, rfl, many⟩ | ⟨rfl, none, many⟩)
    · exact if_pos none
    · unfold checkPrivateCounts
      rw [if_neg (by omega), if_pos primaries]
    · unfold checkPrivateCounts
      rw [if_neg (by omega), if_neg (by omega)]
      exact if_pos many
    · unfold checkPrivateCounts
      rw [if_neg (by omega), if_neg (by omega)]
      exact if_pos ⟨none, many⟩

/-! ### Placing -/

/-- A partition has one first private super network. -/
theorem IsSuperNetwork.unique {superNetwork' : Network}
    (isSuper : IsSuperNetwork superNetworks partition superNetwork)
    (isSuper' : IsSuperNetwork superNetworks partition superNetwork') :
    superNetwork = superNetwork' := by
  rw [← find?_superNetwork_iff] at isSuper isSuper'
  exact Option.some.inj (isSuper.symm.trans isSuper')

theorem Store.placeFault_iff {n : Network} {id project : String} (stored : s.network? id = some n)
    (isSuper : IsSuperNetwork superNetworks partition superNetwork) :
    s.PlaceFault project partition superNetworks id e ↔
      n.isPrivate = true ∧
        if n.isUnshared = true ∧ n.project ≠ some project then e = .foreignPrivateNetwork id
        else n.liesIn partition superNetwork.id = false ∧ e = .privateNetworkElsewhere id := by
  have place : n.liesIn partition superNetwork.id = true ↔
      n.partition = some partition ∧ ∃ superNetwork shared,
        IsSuperNetwork superNetworks partition superNetwork ∧
          n.kind = .tenant superNetwork.id shared := by
    rw [Network.liesIn_iff]
    refine and_congr_right fun _ => ?_
    constructor
    · rintro ⟨shared, kind⟩
      exact ⟨superNetwork, shared, isSuper, kind⟩
    · rintro ⟨_, shared, isSuper', kind⟩
      rw [← IsSuperNetwork.unique isSuper isSuper'] at kind
      exact ⟨shared, kind⟩
  constructor
  · rintro (⟨known, unshared, foreign⟩ | ⟨known, isPrivate, owned, elsewhere⟩)
    · cases stored.symm.trans known
      rw [if_pos ⟨unshared, foreign⟩]
      exact ⟨(Bool.and_eq_true_iff.mp unshared).1, rfl⟩
    · cases stored.symm.trans known
      rw [if_neg fun ⟨unshared, foreign⟩ => foreign (owned unshared)]
      rw [← place, Bool.not_eq_true] at elsewhere
      exact ⟨isPrivate, elsewhere, rfl⟩
  · rintro ⟨isPrivate, fault⟩
    split_ifs at fault with foreign
    · subst fault
      exact .foreign stored foreign.1 foreign.2
    · obtain ⟨elsewhere, rfl⟩ := fault
      rw [← Bool.not_eq_true, place] at elsewhere
      refine .elsewhere stored isPrivate (fun unshared => ?_) elsewhere
      exact not_not.mp fun notOwned => foreign ⟨unshared, notOwned⟩

theorem checkPrivateNetwork_eq_error_iff (keyed : s.Keyed)
    (isSuper : IsSuperNetwork superNetworks partition superNetwork) {project : String}
    {f : FoundNetwork} (stored : s.network? f.request.network = some f.network)
    (attachable : Attachable.of f.network = .ok f.attachable) :
    checkPrivateNetwork project partition superNetwork.id f = .error e ↔
      s.PlaceFault project partition superNetworks f.request.network e := by
  have own : f.network.id = f.request.network := keyed.network _ _ stored
  rw [Store.placeFault_iff stored isSuper]
  unfold checkPrivateNetwork
  cases kind : f.attachable with
  | external =>
      have notPrivate : f.network.isPrivate ≠ true := fun isPrivate => by
        have := (Attachable.eq_tenant_iff attachable f.network.isShared).mpr ⟨isPrivate, rfl⟩
        simp [kind] at this
      simp [notPrivate]
  | tenant shared =>
      obtain ⟨isPrivate, isShared⟩ := (Attachable.eq_tenant_iff attachable shared).mp kind
      have unshared : f.network.isUnshared = !shared := by
        rw [Network.isUnshared, isPrivate, isShared, Bool.true_and]
      simp only [isPrivate, unshared, own, true_and, Bool.and_eq_true, decide_eq_true_eq,
        Bool.not_eq_true', ne_eq]
      split_ifs with foreign elsewhere
      · simp [eq_comm]
      · simp [elsewhere, eq_comm]
      · simp [elsewhere]

/-! ### Addresses -/

section Addresses

variable {plan : Plan} {text : String} {texts : List String}

/-- Binding an address fails for the fault of the address, whatever was bound before. -/
theorem Store.bindAddress_eq_error_iff
    (keys : ∀ id, (plan.get? id).isSome = true ↔ ∃ q ∈ r.networks, q.network = id) :
    s.bindAddress r.project plan text = .error e ↔ s.AddressFault r text e := by
  unfold bindAddress Request.readAddress
  constructor
  · intro failed
    cases spelled : Address.ofText? text with
    | none =>
        simp only [spelled, bind, Except.bind] at failed
        cases failed
        exact .illegal spelled
    | some a =>
        simp only [spelled, bind, Except.bind] at failed
        cases leased : s.lease? a with
        | none =>
            simp only [leased] at failed
            cases failed
            exact .unknown spelled leased
        | some l =>
            cases stored : plan.get? l.network with
            | none =>
                simp only [leased, stored] at failed
                cases failed
                refine .outside spelled leased fun q asked same => ?_
                simpa [stored] using (keys l.network).mpr ⟨q, asked, same⟩
            | some planned =>
                simp only [leased, stored] at failed
                split_ifs at failed with foreign
                cases failed
                exact .foreign spelled leased ((keys l.network).mp (by simp [stored])) foreign
  · rintro (spelled | ⟨spelled, leased⟩ | ⟨spelled, leased, outside⟩ |
      ⟨spelled, leased, requested, foreign⟩)
    · simp [spelled, bind, Except.bind]
    · simp [spelled, leased, bind, Except.bind]
    · next a l =>
        have unplanned : plan.get? l.network = none := by
          rw [← Option.not_isSome_iff_eq_none, keys]
          rintro ⟨q, asked, same⟩
          exact outside q asked same
        simp [spelled, leased, unplanned, bind, Except.bind]
    · next a l =>
        obtain ⟨planned, stored⟩ := Option.isSome_iff_exists.mp ((keys l.network).mpr requested)
        simp [spelled, leased, stored, foreign, bind, Except.bind]

/-- Binding reports the first text that cannot be bound. -/
theorem Store.foldlM_bindAddress_eq_error_iff
    (keys : ∀ id, (plan.get? id).isSome = true ↔ ∃ q ∈ r.networks, q.network = id) :
    texts.foldlM (s.bindAddress r.project) plan = .error e ↔
      FirstFault (s.AddressFault r) texts e := by
  induction texts generalizing plan e with
  | nil => simp [not_firstFault_nil, pure, Except.pure]
  | cons text texts ih =>
      rw [List.foldlM_cons]
      refine bind_eq_error_iff_firstFault (fun e => bindAddress_eq_error_iff keys) ?_ e
      intro plan' bound e
      obtain ⟨a, l, planned, -, stored, -, rfl⟩ := bindAddress_eq_ok_iff.mp bound
      exact ih fun id => by rw [isSome_get?_insert stored, keys]

/-- Without any address for it, a network is blamed if it acquires none. -/
theorem checkAddressed_eq_error_iff :
    checkAddressed plan = .error e ↔
      LeastFault (·.1) (fun entry e => (!entry.2.auto && entry.2.leases.isEmpty) = true ∧
        e = .missingAddress entry.1 entry.2.network.kind) plan.entries e := by
  rw [← firstFault_iff_least plan.sorted, firstFault_test_iff]
  unfold checkAddressed
  cases plan.entries.find? fun e => !e.2.auto && e.2.leases.isEmpty <;> simp [eq_comm]

end Addresses

/-! ### Stages after the look-up -/

section Found

variable (distinct : (r.networks.map (·.network)).Nodup)
variable (all : r.networksById.mapM s.findNetwork = .ok found)

include distinct all

/-- Counting the found networks reports what is wrong with the requested ones. -/
theorem counting_eq_error_iff :
    checkPrivateCounts r.role (found.countP (·.attachable = .tenant false))
        (found.countP (·.attachable = .tenant true)) = .error e ↔
      s.Fault r partition superNetworks .counting e := by
  rw [checkPrivateCounts_eq_error_iff, countP_unshared distinct all, countP_shared distinct all]
  exact Iff.rfl

/-- Placing the found networks reports what is wrong with the requested ones. -/
theorem placing_eq_error_iff (keyed : s.Keyed)
    (isSuper : IsSuperNetwork superNetworks partition superNetwork) :
    found.forM (checkPrivateNetwork r.project partition superNetwork.id) = .error e ↔
      s.Fault r partition superNetworks .placing e := by
  obtain ⟨requests, stored⟩ := Store.mapM_findNetwork_eq_ok_iff.mp all
  calc found.forM (checkPrivateNetwork r.project partition superNetwork.id) = .error e
    _ ↔ FirstFault (fun f => s.PlaceFault r.project partition superNetworks f.request.network)
          found e := by
        rw [forM_eq_error_iff]
        exact firstFault_congr fun f mem e =>
          checkPrivateNetwork_eq_error_iff keyed isSuper (stored f mem).1 (stored f mem).2
    _ ↔ FirstFault (fun q => s.PlaceFault r.project partition superNetworks q.network)
          r.networksById e := by rw [← requests, firstFault_map]
    _ ↔ s.Fault r partition superNetworks .placing e := firstFault_networksById_iff distinct

omit distinct in
theorem acquisitionFault_iff {f : FoundNetwork} (mem : f ∈ found) {texts : List String} :
    s.AcquisitionFault texts f.request e ↔
      (f.request.autoAcquire = some false ∧ s.leasesNamed texts f.request.network = []) ∧
        e = .missingAddress f.request.network f.network.kind := by
  have known := ((Store.mapM_findNetwork_eq_ok_iff.mp all).2 f mem).1
  have unfed : s.leasesNamed texts f.request.network = [] ↔ ∀ text ∈ texts, ∀ a l,
      Address.ofText? text = some a → s.lease? a = some l → l.network ≠ f.request.network := by
    rw [← not_iff_not, ← Ne, Store.leasesNamed_ne_nil_iff]
    push Not
    rfl
  rw [unfed]
  constructor
  · rintro ⟨known', refrains, unfed⟩
    cases known.symm.trans known'
    exact ⟨⟨refrains, unfed⟩, rfl⟩
  · rintro ⟨⟨refrains, unfed⟩, rfl⟩
    exact .missing known refrains unfed

/-- The last check reports the first network that is left without an address. -/
theorem acquiring_eq_error_iff {hasUnshared : Bool} :
    checkAddressed (s.bindNamed r.addresses (initialPlan hasUnshared found)) = .error e ↔
      s.Fault r partition superNetworks .acquiring e := by
  have lacks : ∀ f : FoundNetwork, ∀ leases,
      (!((f.planned hasUnshared).bindAll leases).auto &&
        ((f.planned hasUnshared).bindAll leases).leases.isEmpty) = true ↔
          f.request.autoAcquire = some false ∧ leases = [] := by
    intro f leases
    have fed := f.addressed_iff hasUnshared leases
    rw [← not_iff_not] at fed
    simpa [not_or] using fed
  rw [checkAddressed_eq_error_iff]
  refine leastFault_congr fun id e => ?_
  constructor
  · rintro ⟨⟨_, p⟩, mem, rfl, lacking, rfl⟩
    rw [Table.mem_entries_iff, get?_bindNamed_eq_some_iff (nodup_found distinct all)] at mem
    obtain ⟨f, mem, rfl, rfl⟩ := mem
    rw [PlannedNetwork.bindAll_network]
    exact ⟨f.request, (mem_found_iff distinct all).mp ⟨f, mem, rfl⟩, rfl,
      (acquisitionFault_iff all mem).mpr ⟨(lacks f _).mp lacking, rfl⟩⟩
  · rintro ⟨q, asked, rfl, faulty⟩
    obtain ⟨f, mem, rfl⟩ := (mem_found_iff distinct all).mpr asked
    obtain ⟨lacking, rfl⟩ := (acquisitionFault_iff all mem).mp faulty
    let p := (f.planned hasUnshared).bindAll (s.leasesNamed r.addresses f.request.network)
    refine ⟨(f.request.network, p), ?_, rfl, (lacks f _).mpr lacking, ?_⟩
    · rw [Table.mem_entries_iff, get?_bindNamed_eq_some_iff (nodup_found distinct all)]
      exact ⟨f, mem, rfl, rfl⟩
    · rw [PlannedNetwork.bindAll_network]
      rfl

end Found

/-! ### All stages -/

/-- The stage of the super network fails exactly when there is none. -/
theorem superNetwork_fault_iff :
    s.Fault r partition superNetworks .superNetwork e ↔
      superNetworks.find? (fun n => n.isPrivateSuper && n.partition = some partition) = none ∧
        e = .noPrivateSuperNetwork partition := by
  rw [List.find?_eq_none]
  simp [Store.Fault, Network.isPrivateSuper]

/-- A plan is refused for the first fault of its stages. -/
theorem Store.plan_eq_error_iff (keyed : s.Keyed) :
    s.plan r partition superNetworks = .error e ↔
      FirstFault (s.Fault r partition superNetworks) PlanStage.all e := by
  unfold Store.plan PlanStage.all
  by_cases distinct : (r.networks.map (·.network)).Nodup
  case neg =>
    rw [firstFault_cons]
    simp [Fault, distinct, throw, throwThe, MonadExceptOf.throw, bind, Except.bind, eq_comm]
  simp only [distinct, not_true_eq_false, if_false]
  rw [firstFault_cons_of_sound fun e' repeated => repeated.1 distinct]
  cases first : superNetworks.find? fun n => n.isPrivateSuper && n.partition = some partition with
  | none =>
      rw [firstFault_cons]
      simp [superNetwork_fault_iff, first, throw, throwThe, MonadExceptOf.throw, eq_comm]
  | some superNetwork =>
      have isSuper := find?_superNetwork_iff.mp first
      rw [firstFault_cons_of_sound fun e' lacking => by simp [superNetwork_fault_iff, first] at lacking]
      -- Each stage is met after the ones before it have passed.
      refine bind_eq_error_iff_firstFault ?lookUp (fun found all e => ?_) e
      case lookUp =>
        intro e
        rw [mapM_eq_error_iff]
        simp only [findNetwork_eq_error_iff keyed]
        exact firstFault_networksById_iff distinct
      refine bind_eq_error_iff_firstFault (fun e => counting_eq_error_iff distinct all)
        (fun _ _ e => ?_) e
      refine bind_eq_error_iff_firstFault (fun e => placing_eq_error_iff distinct all keyed isSuper)
        (fun _ _ e => ?_) e
      refine bind_eq_error_iff_firstFault ?addressing (fun plan bound e => ?_) e
      case addressing =>
        intro e
        exact foldlM_bindAddress_eq_error_iff fun id => isSome_get?_initialPlan_iff distinct all
      obtain ⟨-, rfl⟩ := foldlM_bindAddress_eq_ok_iff.mp bound
      refine bind_eq_error_iff_firstFault (fun e => acquiring_eq_error_iff distinct all)
        (fun _ _ e => ?_) e
      simp [not_firstFault_nil, pure, Except.pure]

theorem PlanStage.mem_all (stage : PlanStage) : stage ∈ all := by cases stage <;> decide

/-- A request is refused exactly for the fault of the earliest stage that finds one, and it is refused
whenever some stage finds one. -/
theorem refused_for_earliest_fault {s : Store} (reached : s.Reachable) (r : Request)
    (partition : String) (superNetworks : List Network) :
    (∀ e, s.plan r partition superNetworks = .error e ↔
      FirstFault (s.Fault r partition superNetworks) PlanStage.all e) ∧
    ((∃ e, s.plan r partition superNetworks = .error e) ↔
      ∃ stage e, s.Fault r partition superNetworks stage e) := by
  have reported : ∀ e, s.plan r partition superNetworks = .error e ↔
      FirstFault (s.Fault r partition superNetworks) PlanStage.all e :=
    fun e => Store.plan_eq_error_iff reached.keyed
  refine ⟨reported, ?_⟩
  simp only [reported, exists_firstFault_iff, PlanStage.mem_all, true_and]

/-- Somebody else's gateway at an illegal address: the network of the other project is blamed, though
the address is at fault too. -/
theorem foreign_gateway_refused :
    let s := (history Operation.gatewaySite).store
    let r := { Request.gateway with project := "y", addresses := ["10.0.0.256", "10.0.0.1"] }
    let fault := s.Fault r "p" s.superNetworks
    s.Reachable ∧ s.plan r "p" s.superNetworks = .error (.foreignPrivateNetwork "own") ∧
    FirstFault fault PlanStage.all (.foreignPrivateNetwork "own") ∧
    fault .addressing (.invalidRequest "\"10.0.0.256\" is not a valid IP address") ∧
    ∃ stage e, fault stage e := by
  intro s r fault
  have reached : s.Reachable := Store.reachable_history _
  obtain ⟨reported, refused⟩ := refused_for_earliest_fault reached r "p" s.superNetworks
  have planned : s.plan r "p" s.superNetworks = .error (.foreignPrivateNetwork "own") := by
    decide +kernel
  have message : Request.illegalAddressMessage "10.0.0.256" =
      "\"10.0.0.256\" is not a valid IP address" := by decide +kernel
  have illegal : s.AddressFault r "10.0.0.256"
      (.invalidRequest "\"10.0.0.256\" is not a valid IP address") := by
    rw [← message]
    exact .illegal (by decide)
  exact ⟨reached, planned, (reported _).mp planned, ⟨[], _, _, rfl, illegal, nofun⟩,
    refused.mp ⟨_, planned⟩⟩

end MachinePool
