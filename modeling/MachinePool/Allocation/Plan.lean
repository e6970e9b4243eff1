import MachinePool.Allocation.Validation
import MachinePool.Store.Basic

/-!
The plan of a request: what each requested network is for the machine, and the
addresses bound to it.

A plan is made in stages, each of which may refuse the request: the networks are
distinct; the partition has a private super network; every network is known and
may be attached; the private networks are few enough for the role; each of them
lies in the partition and is shared or owned by the project; the given addresses
belong to requested networks and to the project; and every network has an
address or acquires one. The stages look at the networks in the order of their
ids, so the order in which they are requested does not matter.
-/

namespace MachinePool

structure PlannedNetwork where
  network : Network
  type : AttachmentType
  leases : List Lease
  /-- Whether an address is acquired automatically. -/
  auto : Bool
  deriving DecidableEq, Repr

namespace PlannedNetwork

def attachment (p : PlannedNetwork) : Attachment where
  network := p.network.id
  addresses := p.leases.map (·.address)
  autoAcquire := p.auto
  type := p.type

/-- Binds a lease, once; then nothing is acquired automatically. -/
def bindLease (p : PlannedNetwork) (address : Address) (lease : Lease) : PlannedNetwork :=
  { p with
    leases := if p.leases.any (·.address = address) then p.leases else p.leases ++ [lease]
    auto := false }

end PlannedNetwork

/-- The plan of a request: its networks by id. -/
abbrev Plan := Table PlannedNetwork

/-- The attachments of a machine that gets the plan, in the order of the network ids. -/
def Plan.attachments (plan : Plan) : List Attachment := plan.values.map (·.attachment)

/-! ### Networks -/

/-- What makes a network attachable: it is external, or private and shared or not. -/
inductive Attachable where
  | external
  | tenant (shared : Bool)
  deriving DecidableEq, Repr

/-- What a network may be attached as; super networks and underlays may not be attached. -/
def Attachable.of (n : Network) : Except AllocationError Attachable :=
  match n.kind with
  | .external => .ok .external
  | .tenant _ shared => .ok (.tenant shared)
  | .privateSuper => .error (.forbiddenNetworkKind n.id n.kind)
  | .underlay => .error (.forbiddenNetworkKind n.id n.kind)

structure FoundNetwork where
  request : NetworkRequest
  network : Network
  attachable : Attachable
  deriving DecidableEq, Repr

def Store.findNetwork (s : Store) (request : NetworkRequest) :
    Except AllocationError FoundNetwork :=
  match s.network? request.network with
  | none => .error (.networkNotFound request.network)
  | some network => (Attachable.of network).map (⟨request, network, ·⟩)

/-- The type of a network in a request that has an unshared private network or has none. -/
def Attachable.type (hasUnshared : Bool) : Attachable → AttachmentType
  | .external => .external
  | .tenant false => .privatePrimaryUnshared
  | .tenant true => if hasUnshared then .privateSecondaryShared else .privatePrimaryShared

def checkPrivateCounts (role : Role) (unshared shared : Nat) : Except AllocationError Unit :=
  if unshared + shared = 0 then .error .noPrivateNetwork
  else if 1 < unshared then .error .multiplePrimaryNetworks
  else match role with
    | .machine => if 1 < unshared + shared then .error .multiplePrivateNetworks else .ok ()
    | .firewall =>
      if unshared = 0 ∧ 1 < shared then .error .multipleSharedNetworks else .ok ()

/-- Whether a private network is carved out of the partition's super network. -/
def Network.liesIn (n : Network) (partition superNetwork : String) : Bool :=
  n.partition = some partition &&
    match n.kind with
    | .tenant parent _ => parent = superNetwork
    | _ => false

/-- Checks the owner and the place of a private network; a shared one may have any owner. -/
def checkPrivateNetwork (project partition superNetwork : String) (found : FoundNetwork) :
    Except AllocationError Unit :=
  match found.attachable with
  | .external => .ok ()
  | .tenant shared =>
    if !shared && found.network.project ≠ some project then
      .error (.foreignPrivateNetwork found.network.id)
    else if !found.network.liesIn partition superNetwork then
      .error (.privateNetworkElsewhere found.network.id)
    else .ok ()

/-! ### Addresses -/

/-- Binds an address to the planned network it is leased out of. -/
def Store.bindAddress (s : Store) (project : String) (plan : Plan) (spelling : String) :
    Except AllocationError Plan := do
  let address ← Request.readAddress spelling
  match s.lease? address with
  | none => .error (.leaseNotFound address)
  | some lease =>
    match plan.get? lease.network with
    | none => .error (.addressOutsideNetworks address)
    | some planned =>
      if lease.project ≠ project then .error (.foreignAddress address lease.project project)
      else .ok (plan.insert lease.network (planned.bindLease address lease))

/-- Checks that every network has an address or acquires one. -/
def checkAddressed (plan : Plan) : Except AllocationError Unit :=
  match plan.entries.find? fun e => !e.2.auto && e.2.leases.isEmpty with
  | some (id, planned) => .error (.missingAddress id planned.network.kind)
  | none => .ok ()

/-! ### The plan -/

def Request.networksById (r : Request) : List NetworkRequest :=
  (Table.ofList (r.networks.map fun n => (n.network, n))).values

def initialPlan (hasUnshared : Bool) (found : List FoundNetwork) : Plan :=
  Table.ofList (found.map fun f =>
    (f.request.network,
      { network := f.network, type := f.attachable.type hasUnshared, leases := [],
        auto := f.request.wantsAuto }))

/-- Plans a request for a partition, given the private super networks of all partitions. -/
def Store.plan (s : Store) (r : Request) (partition : String) (superNetworks : List Network) :
    Except AllocationError Plan := do
  if ¬(r.networks.map (·.network)).Nodup then
    throw .duplicateNetwork
  match superNetworks.find? fun n => n.isPrivateSuper && n.partition = some partition with
  | none => throw (.noPrivateSuperNetwork partition)
  | some superNetwork =>
    let found ← r.networksById.mapM s.findNetwork
    let unshared := found.countP (·.attachable = .tenant false)
    let shared := found.countP (·.attachable = .tenant true)
    checkPrivateCounts r.role unshared shared
    found.forM (checkPrivateNetwork r.project partition superNetwork.id)
    let plan ← r.addresses.foldlM (s.bindAddress r.project) (initialPlan (0 < unshared) found)
    checkAddressed plan
    return plan

def Store.validateAndPlan (s : Store) (r : Request) (partition : String)
    (superNetworks : List Network) : Except AllocationError Plan := do
  r.validate
  s.plan r partition superNetworks

end MachinePool
