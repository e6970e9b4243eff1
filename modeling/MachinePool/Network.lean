import MachinePool.Address

/-!
Networks of the data center and the addresses leased out of them.
-/

namespace MachinePool

/-- The place of a network in the topology. -/
inductive NetworkKind where
  /-- The parent of all tenant networks of a partition. -/
  | privateSuper
  /-- Connects switches and machines. -/
  | underlay
  /-- Carved out of a private super network for tenants; a shared one may be used by projects that
  do not own it. -/
  | tenant (parent : String) (shared : Bool)
  /-- Routed to the outside. -/
  | external
  deriving DecidableEq, Repr

def NetworkKind.displayName : NetworkKind → String
  | privateSuper => "private super"
  | underlay => "underlay"
  | tenant _ true => "private shared"
  | tenant _ false => "private"
  | external => "external"

structure Network where
  id : String
  name : String
  /-- Absent for infrastructure. -/
  project : Option String
  /-- Absent for networks of all partitions. -/
  partition : Option String
  ranges : List String
  kind : NetworkKind
  deriving DecidableEq, Repr

namespace Network

/-- Whether tenants use the network as a private one. -/
def isPrivate (n : Network) : Bool :=
  match n.kind with
  | .tenant _ _ => true
  | _ => false

/-- Whether projects that do not own the network may use it as a private one. -/
def isShared (n : Network) : Bool :=
  match n.kind with
  | .tenant _ shared => shared
  | _ => false

/-- Whether the network is the parent of a partition's tenant networks. -/
def isPrivateSuper (n : Network) : Bool := n.kind = .privateSuper

end Network

/-- An address leased to a project out of a network. -/
structure Lease where
  address : Address
  name : String
  project : String
  network : String
  deriving DecidableEq, Repr

/-- The key a lease is stored under: one text for all spellings of its address. -/
def Lease.key (l : Lease) : String := l.address.text

end MachinePool
