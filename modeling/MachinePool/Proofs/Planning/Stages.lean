import MachinePool.Allocation.Plan
import MachinePool.Proofs.Checks

/-!
When each stage of a plan passes.

A plan comes out exactly when all of its stages pass (`Store.plan_eq_ok_iff`),
and each of the lemmas about a stage says what it demands of the networks. A
stage that refuses a plan refuses it for the request's sake, and blames its
structure only for a text that spells no address (`RefusedFor`).
-/

namespace MachinePool

variable {s : Store} {r : Request} {partition : String} {superNetworks : List Network}
variable {plan : Plan} {n : Network} {e : AllocationError}

/-! ### Kinds -/

/-- External and private networks are attachable, and no others. -/
theorem Attachable.of_eq_ok_iff {a : Attachable} :
    Attachable.of n = .ok a ↔
      n.kind = .external ∧ a = .external ∨
        ∃ parent shared, n.kind = .tenant parent shared ∧ a = .tenant shared := by
  unfold Attachable.of
  cases n.kind with
  | external => simp [eq_comm]
  | privateSuper => simp
  | underlay => simp
  | tenant parent shared =>
      constructor
      · rintro ⟨⟩
        exact .inr ⟨parent, shared, rfl, rfl⟩
      · rintro (⟨⟨⟩, -⟩ | ⟨_, _, ⟨⟩, rfl⟩)
        rfl

/-- Networks of the two kinds that tenants may ask for are attachable. -/
theorem Attachable.exists_of_eq_ok_iff :
    (∃ a, Attachable.of n = .ok a) ↔ n.kind = .external ∨ n.isPrivate = true := by
  unfold Attachable.of Network.isPrivate
  cases n.kind <;> simp

/-- What a network is attached as says whether it is private and whether it is shared. -/
theorem Attachable.eq_tenant_iff {a : Attachable} (attachable : Attachable.of n = .ok a)
    (shared : Bool) : a = .tenant shared ↔ n.isPrivate = true ∧ n.isShared = shared := by
  unfold Network.isPrivate Network.isShared
  rcases Attachable.of_eq_ok_iff.mp attachable with ⟨kind, rfl⟩ | ⟨parent, _, kind, rfl⟩
  · simp [kind]
  · simp [kind]

theorem Network.liesIn_iff {superNetwork : String} :
    n.liesIn partition superNetwork = true ↔
      n.partition = some partition ∧ ∃ shared, n.kind = .tenant superNetwork shared := by
  unfold Network.liesIn
  cases n.kind <;> simp

/-! ### Finding networks -/

theorem Store.findNetwork_eq_ok_iff {q : NetworkRequest} {f : FoundNetwork} :
    s.findNetwork q = .ok f ↔
      f.request = q ∧ s.network? q.network = some f.network ∧
        Attachable.of f.network = .ok f.attachable := by
  unfold findNetwork
  cases found : s.network? q.network with
  | none => simp
  | some n =>
      cases f with
      | mk request network attachable =>
          cases kind : Attachable.of n with
          | error e =>
              simp only [kind, Except.map, Option.some.injEq, reduceCtorEq, false_iff]
              rintro ⟨-, rfl, ok⟩
              simp [kind] at ok
          | ok a =>
              simp only [kind, Except.map, Option.some.injEq, Except.ok.injEq,
                FoundNetwork.mk.injEq]
              constructor
              · rintro ⟨rfl, rfl, rfl⟩
                exact ⟨rfl, rfl, kind⟩
              · rintro ⟨rfl, rfl, ok⟩
                exact ⟨rfl, rfl, Except.ok.inj (kind.symm.trans ok)⟩

/-- All requested networks are found when each is stored and attachable. -/
theorem Store.mapM_findNetwork_eq_ok_iff {requests : List NetworkRequest}
    {found : List FoundNetwork} :
    requests.mapM s.findNetwork = .ok found ↔
      found.map (·.request) = requests ∧
        ∀ f ∈ found, s.network? f.request.network = some f.network ∧
          Attachable.of f.network = .ok f.attachable := by
  rw [mapM_eq_ok_iff]
  constructor
  · intro all
    induction all with
    | nil => simp
    | @cons q f _ _ first _ ih =>
        obtain ⟨rfl, stored, attachable⟩ := findNetwork_eq_ok_iff.mp first
        exact ⟨by simp [ih.1], List.forall_mem_cons.mpr ⟨⟨stored, attachable⟩, ih.2⟩⟩
  · rintro ⟨rfl, all⟩
    rw [List.forall₂_map_left_iff, List.forall₂_same]
    intro f mem
    exact findNetwork_eq_ok_iff.mpr ⟨rfl, all f mem⟩

/-! ### Counting and placing private networks -/

/-- The rules for the numbers of private networks, by role. -/
theorem checkPrivateCounts_eq_ok_iff {role : Role} {unshared shared : Nat} :
    checkPrivateCounts role unshared shared = .ok () ↔
      0 < unshared + shared ∧ unshared ≤ 1 ∧ (role = .machine → unshared + shared = 1) ∧
        (role = .firewall → unshared = 0 → shared ≤ 1) := by
  cases role with
  | machine =>
      simp only [checkPrivateCounts, reduceCtorEq, false_implies, and_true, forall_const]
      split_ifs <;> simp only [false_iff, true_iff] <;> omega
  | firewall =>
      simp only [checkPrivateCounts, reduceCtorEq, false_implies, true_and, forall_const]
      split_ifs <;> simp only [false_iff, true_iff] <;> omega

/-- A network passes if it is not private, or else lies in the partition and is shared or owned. -/
theorem checkPrivateNetwork_eq_ok_iff {project superNetwork : String} {f : FoundNetwork}
    (attachable : Attachable.of f.network = .ok f.attachable) :
    checkPrivateNetwork project partition superNetwork f = .ok () ↔
      (f.network.isPrivate = true →
        f.network.partition = some partition ∧
          (∃ shared, f.network.kind = .tenant superNetwork shared) ∧
          (f.network.isShared = true ∨ f.network.project = some project)) := by
  unfold checkPrivateNetwork
  cases kind : f.attachable with
  | external =>
      have notPrivate : f.network.isPrivate ≠ true := fun isPrivate => by
        have := (Attachable.eq_tenant_iff attachable f.network.isShared).mpr ⟨isPrivate, rfl⟩
        simp [kind] at this
      simp [notPrivate]
  | tenant shared =>
      obtain ⟨isPrivate, isShared⟩ := (Attachable.eq_tenant_iff attachable shared).mp kind
      have owner : (!shared && decide (f.network.project ≠ some project)) = false ↔
          f.network.isShared = true ∨ f.network.project = some project := by
        cases shared <;> simp [isShared]
      simp only [isPrivate, forall_const]
      rw [← and_assoc, ← Network.liesIn_iff, ← owner]
      cases f.network.liesIn partition superNetwork <;>
        cases !shared && decide (f.network.project ≠ some project) <;> simp

/-! ### The whole plan -/

/-- A plan comes out exactly when all stages pass. -/
theorem Store.plan_eq_ok_iff :
    s.plan r partition superNetworks = .ok plan ↔
      (r.networks.map (·.network)).Nodup ∧ ∃ superNetwork found,
        superNetworks.find? (fun n => n.isPrivateSuper && n.partition = some partition) =
          some superNetwork ∧
        r.networksById.mapM s.findNetwork = .ok found ∧
        checkPrivateCounts r.role (found.countP (·.attachable = .tenant false))
          (found.countP (·.attachable = .tenant true)) = .ok () ∧
        (∀ f ∈ found, checkPrivateNetwork r.project partition superNetwork.id f = .ok ()) ∧
        r.addresses.foldlM (s.bindAddress r.project)
          (initialPlan (0 < found.countP (·.attachable = .tenant false)) found) = .ok plan ∧
        checkAddressed plan = .ok () := by
  unfold Store.plan
  by_cases distinct : (r.networks.map (·.network)).Nodup
  · simp only [distinct, not_true_eq_false, if_false, true_and]
    cases first : superNetworks.find?
        (fun n => n.isPrivateSuper && n.partition = some partition) with
    | none => simp [throw, throwThe, MonadExceptOf.throw]
    | some superNetwork =>
        simp only [bind_eq_ok_iff, Option.some.injEq, pure, Except.pure, Except.ok.injEq]
        constructor
        · rintro ⟨found, all, ⟨⟩, counts, ⟨⟩, placed, _, binding, ⟨⟩, addressed, rfl⟩
          exact ⟨superNetwork, found, rfl, all, counts, forM_eq_ok_iff.mp placed, binding, addressed⟩
        · rintro ⟨_, found, rfl, all, counts, placed, binding, addressed⟩
          exact ⟨found, all, (), counts, (), forM_eq_ok_iff.mpr placed, plan, binding, (), addressed,
            rfl⟩
  · simp only [distinct, not_false_eq_true, if_true, false_and, iff_false]
    simp [throw, throwThe, MonadExceptOf.throw, bind, Except.bind]

/-! ### Refusals -/

/-- What is refused for the request's sake and not for want of a machine or a lost race. -/
abbrev BlamesRequest {α : Type} (x : Except AllocationError α) : Prop :=
  FailsOnly (·.category = .invalidRequest) x

/-- What a plan of some texts can be refused for: something of the request, which is its structure
only where one of the texts spells no address. -/
def AllocationError.IsRefusal (texts : List String) : AllocationError → Prop
  | invalidRequest reason => ∃ text ∈ texts,
      Address.ofText? text = none ∧ reason = Request.illegalAddressMessage text
  | e => e.category = .invalidRequest

abbrev RefusedFor (texts : List String) {α : Type} (x : Except AllocationError α) : Prop :=
  FailsOnly (·.IsRefusal texts) x

theorem RefusedFor.blamesRequest {texts : List String} {α : Type} {x : Except AllocationError α}
    (h : RefusedFor texts x) : BlamesRequest x := by
  intro e failed
  have refusal := h e failed
  cases e with
  | invalidRequest reason => rfl
  | _ => exact refusal

/-- Where every text spells an address, no refusal is about the structure of the request. -/
theorem RefusedFor.ne_invalidRequest {texts : List String} {α : Type}
    {x : Except AllocationError α} (h : RefusedFor texts x)
    (spelled : ∀ text ∈ texts, ∃ a, Address.ofText? text = some a) (reason : String) :
    x ≠ .error (.invalidRequest reason) := by
  intro failed
  obtain ⟨text, mem, illegal, -⟩ := h _ failed
  obtain ⟨a, legal⟩ := spelled text mem
  rw [illegal] at legal
  cases legal

section Stage

variable (texts : List String)

theorem refusedFor_findNetwork (s : Store) (q : NetworkRequest) :
    RefusedFor texts (s.findNetwork q) := by
  unfold Store.findNetwork
  cases s.network? q.network with
  | none => exact .error rfl
  | some n =>
      cases kind : n.kind <;> simp only [Attachable.of, kind]
      · exact .error rfl
      · exact .error rfl
      · exact .ok _
      · exact .ok _

theorem refusedFor_checkPrivateCounts (role : Role) (unshared shared : Nat) :
    RefusedFor texts (checkPrivateCounts role unshared shared) := by
  unfold checkPrivateCounts
  cases role <;> simp only <;> split_ifs <;> first | exact .error rfl | exact .ok _

theorem refusedFor_checkPrivateNetwork (project partition superNetwork : String)
    (f : FoundNetwork) :
    RefusedFor texts (checkPrivateNetwork project partition superNetwork f) := by
  unfold checkPrivateNetwork
  cases f.attachable with
  | external => exact .ok _
  | tenant shared => simp only; split_ifs <;> first | exact .error rfl | exact .ok _

end Stage

end MachinePool
